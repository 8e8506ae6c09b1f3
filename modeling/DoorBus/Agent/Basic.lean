import DoorBus.Agent.Hardware
import DoorBus.Master.Basic

/-!
# Agents

An agent runs a bus master over some hardware, and keeps the mailbox up to
date for the host. There are two kinds: one on the main core, which the host
itself calls again and again, and one on the small core, which runs on its own
and wakes the host when something happens that the host cares about.

One step of an agent has three parts. It listens: reads what has arrived,
and gives up what has taken too long. It polls, if it is time, with the
action that waits in the mailbox. And it reports: drive requests first, then
the snapshot if it has changed, and the signal to the host last, so that a
host that wakes finds all of it. Only the second part touches the action
slot, and only the third the other words, so that a host may use the mailbox
at any time in between.

## Main definitions

* `WakePolicy`: When the host is woken.
* `Agent`: The state of an agent.
* `Node`: An agent with its mailbox and hardware.
* `Node.listen`, `Node.poll`, `Node.report`: The parts of a step.
* `Node.step`: A step.
* `Node.mainCore`, `Node.smallCore`: The two kinds of agent.
* `Node.run`: The loop of the small core.
-/

namespace DoorBus

/-- When an agent wakes the host. -/
inductive WakePolicy
  /-- Never: the host calls the agent itself. -/
  | never
  /-- When the coarse state or the link changes, or the drive asks for an
      action. -/
  | onTransition
  deriving DecidableEq, Repr

/-- Whether to wake the host, from what it has seen last, what there is to
    see, and what happened. -/
def WakePolicy.shouldWake (policy : WakePolicy) (before after : Snapshot)
    (events : List Event) : Bool :=
  match policy with
  | never => false
  | onTransition =>
    before.status.state != after.status.state || before.connected != after.connected ||
      events.any fun event => event.driveRequest?.isSome

/-- The state of an agent. -/
structure Agent where
  /-- The bus master that it runs. -/
  master : Master
  /-- The snapshot that it wrote last. -/
  published : Snapshot
  /-- When it wakes the host. -/
  policy : WakePolicy
  deriving DecidableEq, Repr

namespace Agent

/-- Most bytes that are read at a time. -/
def chunkSize : Nat := 64

/-- Most reads in a step, enough for the longest frame. -/
def readsPerStep : Nat := 5

/-- Pause of the small core between two steps. -/
def loopPause : Millis := 1

/-- An agent that has not done anything yet. -/
def new (timing : Timing) (policy : WakePolicy) : Agent where
  master := .new timing
  published := (Master.new timing).snapshot
  policy := policy

end Agent

/-- An agent with its mailbox and hardware. -/
structure Node (σ : Type) where
  /-- The agent. -/
  agent : Agent
  /-- Memory shared with the host. -/
  mailbox : Mailbox
  /-- State of the hardware. -/
  hardware : σ

namespace Node

variable {σ : Type}

/-! ## Setting up -/

/-- An agent with a given policy. It writes the empty snapshot at once. -/
def start (timing : Timing) (policy : WakePolicy) (mailbox : Mailbox) (hardware : σ) : Node σ :=
  let agent := Agent.new timing policy
  { agent, mailbox := mailbox.publish agent.published, hardware }

/-- An agent on the main core. -/
def mainCore (timing : Timing) (mailbox : Mailbox) (hardware : σ) : Node σ :=
  start timing .never mailbox hardware

/-- An agent on the small core. It sets the mailbox up unless that has been
    done. -/
def smallCore (timing : Timing) (mailbox : Mailbox) (hardware : σ) : Node σ :=
  start timing .onTransition (if mailbox.isInitialised then mailbox else mailbox.reset) hardware

/-- The node with another state of its bus master. -/
def withMaster (node : Node σ) (master : Master) : Node σ :=
  { node with agent := { node.agent with master } }

/-! ## Listening -/

/-- Read what has arrived, in at most so many reads. A read that fails, finds
    nothing, or does not fill the chunk is the last one. -/
def read (hw : Hardware σ) : Nat → Node σ → EventQueue → Node σ × EventQueue
  | 0, node, queue => (node, queue)
  | reads + 1, node, queue =>
    match hw.receive Agent.chunkSize node.hardware with
    | (hardware, .error _) => ({ node with hardware }, queue)
    | (hardware, .ok bytes) =>
      if bytes.isEmpty then
        ({ node with hardware }, queue)
      else
        let (master, queue) := node.agent.master.hear (hw.now hardware) bytes queue
        let node := ({ node with hardware }).withMaster master
        -- A full chunk may have left something behind.
        if bytes.length < Agent.chunkSize then (node, queue) else read hw reads node queue

/-- Read what has arrived, and give up what has taken too long. -/
def listen (hw : Hardware σ) (node : Node σ) (queue : EventQueue) : Node σ × EventQueue :=
  let (node, queue) := node.read hw Agent.readsPerStep queue
  -- What was read last has been dated by a look of its own.
  let hardware := hw.tick node.hardware
  let (master, queue) := node.agent.master.checkTimeouts (hw.now hardware) queue
  (({ node with hardware }).withMaster master, queue)

/-! ## Polling -/

/-- Write a request to the line, and tell the master how that went. -/
def transmit (hw : Hardware σ) (node : Node σ) (request : List UInt8) (queue : EventQueue) :
    Node σ × EventQueue :=
  match hw.transmit request node.hardware with
  | (hardware, .ok ()) =>
    (({ node with hardware }).withMaster (node.agent.master.transmitted (hw.now hardware)), queue)
  | (hardware, .error _) =>
    let (master, queue) := node.agent.master.transmitFailed queue
    (({ node with hardware }).withMaster master, queue)

/-- Poll the drive if it is time, with the action that waits in the
    mailbox. The clock was looked at when listening, and is not again. -/
def poll (hw : Hardware σ) (node : Node σ) (queue : EventQueue) : Node σ × EventQueue :=
  let begun := node.agent.master.beginIfDue (hw.now node.hardware) Mailbox.takeAction
    node.mailbox queue
  let node := { node with mailbox := begun.source }.withMaster begun.master
  match begun.request with
  | .ok (some request) => node.transmit hw request begun.queue
  | .ok none => (node, begun.queue)
  | .error _ => (node, begun.queue)

/-! ## Reporting -/

/-- Hand the noted drive requests to the host. The last one stays. -/
def reportRequests (mailbox : Mailbox) (events : List Event) : Mailbox :=
  (events.filterMap Event.driveRequest?).foldl Mailbox.publishDriveRequest mailbox

/-- Bring the mailbox up to date, and wake the host if it should know. -/
def report (hw : Hardware σ) (node : Node σ) (events : List Event) : Node σ :=
  let snapshot := node.agent.master.snapshot
  let mailbox := reportRequests node.mailbox events
  let mailbox := if snapshot = node.agent.published then mailbox else mailbox.publish snapshot
  { agent := { node.agent with published := snapshot }
    mailbox := mailbox
    hardware :=
      if node.agent.policy.shouldWake node.agent.published snapshot events then
        hw.wakeHost mailbox node.hardware
      else
        node.hardware }

/-! ## Steps -/

/-- A step of the agent. Gives what happened. -/
def step (hw : Hardware σ) (node : Node σ) : Node σ × List Event :=
  let (node, queue) := node.listen hw .empty
  let (node, queue) := node.poll hw queue
  (node.report hw queue.events, queue.events)

/-- Let time pass. -/
def pause (hw : Hardware σ) (node : Node σ) (span : Millis) : Node σ :=
  { node with hardware := hw.pause span node.hardware }

/-- The loop of the small core, for so many rounds. -/
def run (hw : Hardware σ) : Nat → Node σ → Node σ
  | 0, node => node
  | rounds + 1, node => run hw rounds ((node.step hw).1.pause hw Agent.loopPause)

end Node

end DoorBus

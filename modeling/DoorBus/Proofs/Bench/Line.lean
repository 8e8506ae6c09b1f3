import DoorBus.Bench.Loop
import DoorBus.Proofs.Agent.Begun
import DoorBus.Proofs.Agent.Wake

/-!
# A Step on the Bench Bus

What a step of an agent on the main core does to a bench bus.

Listening takes bytes off the line to the bridge and does nothing else. A
request goes to the line for the drive, in one piece, with the direction
switched around it, and the clock moves by the time that its bytes take. The
report does not touch the bus, since an agent on the main core wakes nobody.

So the bus after a step is known up to what is left to be read, from the
request that the step has begun. And the action slot is emptied exactly by the
steps that begin one.

## Main definitions

* `Bench.hardware`: What an agent runs on here.
* `Bus.IsOpen`: A bus on which nothing waits for the drive.
* `Bus.carrying`: A bus after a request was sent, or none.
* `Node.asking`: An agent that has sent a request, or none.

## Theorems

* `listen_line`: Listening only takes bytes off the line.
* `transmit_request`: A request goes to the drive in one piece.
* `step_asking`: A step listens, begins its request and reports.
* `hardware_step`: What it does to the bus.
* `action_step`: What it does to the action slot.
-/

namespace DoorBus

namespace Millis

theorem elapsed_self (now : Millis) : elapsed now now = 0 :=
  UInt32.sub_self now

/-- Time that has passed is not more than what was let pass. -/
theorem toNat_elapsed_le (since now span : Millis) :
    (elapsed since (now + span)).toNat ≤ (elapsed since now).toNat + span.toNat := by
  have hsum : elapsed since (now + span) = elapsed since now + span := by
    rw [elapsed, elapsed]
    grind
  rw [hsum, UInt32.toNat_add]
  exact Nat.mod_le _ _

end Millis

/-- What an agent on the bench runs on: a transceiver with a turnaround of two
    milliseconds, at the bench bus. -/
def Bench.hardware : Hardware Bus :=
  (Transceiver.new 2).hardware Bus.circuit

@[simp] theorem Bench.now_hardware (bus : Bus) : Bench.hardware.now bus = bus.now := rfl

namespace Bus

/-- Nothing waits for the drive, the bridge listens, and nothing has gone
    wrong. -/
structure IsOpen (bus : Bus) : Prop where
  toDrive_eq : bus.toDrive = []
  transmitting_eq : bus.transmitting = false
  failWrites_eq : bus.failWrites = false
  strayBytes_eq : bus.strayBytes = 0

/-- The time that a request takes: three milliseconds on the wire, and the
    turnaround. -/
def requestTime : Millis := 5

/-- The bus after a request was sent, if there was one. -/
def carrying (bus : Bus) : Option Request → Bus
  | none => bus
  | some request =>
    { bus with
      toDrive := bus.toDrive ++ request.bytes
      transmitting := false
      now := bus.now + requestTime }

end Bus

namespace Node

/-! ## The line -/

/-- Listening only takes bytes off the line. -/
theorem read_line (reads : Nat) (node : Node Bus) (queue : EventQueue) :
    ∃ line, (node.read Bench.hardware reads queue).1.hardware
      = { node.hardware with toBridge := line } := by
  induction reads generalizing node queue with
  | zero => exact ⟨node.hardware.toBridge, rfl⟩
  | succ reads ih =>
      have hreceive : Bench.hardware.receive Agent.chunkSize node.hardware
          = ({ node.hardware with toBridge := node.hardware.toBridge.drop Agent.chunkSize },
            .ok (node.hardware.toBridge.take Agent.chunkSize)) := rfl
      rw [read, hreceive]
      simp only []
      by_cases hempty : (node.hardware.toBridge.take Agent.chunkSize).isEmpty = true
      · rw [if_pos hempty]
        exact ⟨_, rfl⟩
      rw [if_neg hempty]
      by_cases hpart : (node.hardware.toBridge.take Agent.chunkSize).length < Agent.chunkSize
      · rw [if_pos hpart]
        exact ⟨_, rfl⟩
      · rw [if_neg hpart]
        exact ih _ _

/-- A whole turn of listening does no more than its reads. -/
theorem listen_line (node : Node Bus) (queue : EventQueue) :
    ∃ line, (node.listen Bench.hardware queue).1.hardware
      = { node.hardware with toBridge := line } :=
  read_line Agent.readsPerStep node queue

end Node

theorem Request.length_bytes (request : Request) : request.bytes.length = 15 := rfl

/-- A request goes to the drive in one piece, and the bridge listens again. -/
theorem Bench.transmit_request {bus : Bus} (h : bus.failWrites = false) (request : Request) :
    Bench.hardware.transmit request.bytes bus = (bus.carrying (some request), .ok ()) := by
  have hwrite : (Bus.setDirection true bus).write request.bytes
      = ({ bus with toDrive := bus.toDrive ++ request.bytes, transmitting := true }, .ok ()) := by
    rw [Bus.write, Bus.setDirection, h]
    rfl
  have hsend : Bus.circuit.send request.bytes (Bus.setDirection true bus)
      = ({ bus with toDrive := bus.toDrive ++ request.bytes, transmitting := true }, .ok ()) := by
    have hcircuit : Bus.circuit.write = Bus.write := rfl
    rw [Circuit.send, hcircuit, hwrite]
    rfl
  have hsame := Millis.elapsed_self bus.now
  -- Fifteen bytes take three milliseconds, and writing them takes no time of the
  -- clock here.
  have hhold : (Transceiver.new 2).holdTime request.bytes.length 0 = 3 := by
    rw [Request.length_bytes]
    rfl
  have htransmit : Bench.hardware.transmit request.bytes bus
      = (Transceiver.new 2).transmit Bus.circuit request.bytes bus := rfl
  have hset : Bus.circuit.setDirection true bus = Bus.setDirection true bus := rfl
  have hnow : Bus.circuit.now (Bus.setDirection true bus) = bus.now := rfl
  have hnow' : Bus.circuit.now
      { bus with toDrive := bus.toDrive ++ request.bytes, transmitting := true } = bus.now := rfl
  rw [htransmit, Transceiver.transmit]
  simp only [hset, hsend, hnow, hnow', hsame, hhold]
  rfl

namespace Node

/-! ## Polling -/

/-- A node that has begun a request and sent it, if there is one. -/
def asking (node : Node Bus) : Option Request → Node Bus
  | none => node
  | some request =>
    { agent := { node.agent with
        master := (node.agent.master.begun node.hardware.now).transmitted
          (node.hardware.now + Bus.requestTime) }
      mailbox := node.mailbox.takeAction.1
      hardware := node.hardware.carrying (some request) }

theorem hardware_asking (node : Node Bus) (request : Option Request) :
    (node.asking request).hardware = node.hardware.carrying request := by
  cases request <;> rfl

/-- When it is time, the action is taken out of its slot and goes out in the
    request, in the same step. -/
theorem poll_of_due {node : Node Bus} (hworks : node.hardware.failWrites = false)
    (hdue : node.agent.master.isDue node.hardware.now = true) (queue : EventQueue) :
    node.poll Bench.hardware queue
      = (node.asking (some ⟨node.agent.master.nextKind, node.mailbox.pendingAction⟩),
        queue.push (.sent node.agent.master.nextKind node.mailbox.pendingAction)) := by
  rw [poll, Bench.now_hardware, Master.beginIfDue_of_due hdue]
  simp only []
  rw [transmit]
  have hsent := Bench.transmit_request hworks
    ⟨node.agent.master.nextKind, node.mailbox.pendingAction⟩
  have hsent' : Bench.hardware.transmit
      (Request.mk node.agent.master.nextKind node.mailbox.takeAction.2).bytes node.hardware
        = (node.hardware.carrying
          (some ⟨node.agent.master.nextKind, node.mailbox.pendingAction⟩), .ok ()) := hsent
  simp only [withMaster, hsent']
  rfl

theorem poll_of_not_due {node : Node Bus}
    (hdue : ¬node.agent.master.isDue node.hardware.now = true) (queue : EventQueue) :
    node.poll Bench.hardware queue = (node.asking none, queue) := by
  rw [poll, Bench.now_hardware, Master.beginIfDue_of_not_due hdue]
  rfl

/-! ## Reporting -/

/-- What is reported goes into the other words of the mailbox, so an action that
    is pending stays so. -/
theorem action_report {σ : Type} (hw : Hardware σ) (node : Node σ) (events : List Event) :
    (node.report hw events).mailbox.action = node.mailbox.action := by
  have hrequests : (reportRequests node.mailbox events).action = node.mailbox.action := by
    rw [reportRequests]
    -- Each code noted goes into a word of its own.
    induction events.filterMap Event.driveRequest? generalizing node with
    | nil => rfl
    | cons code codes ih =>
        exact ih { node with mailbox := node.mailbox.publishDriveRequest code }
  rw [report]
  by_cases hsame : node.agent.master.snapshot = node.agent.published
  · simp only [if_pos hsame]
    exact hrequests
  · simp only [if_neg hsame]
    exact hrequests

/-- An agent on the main core wakes nobody. -/
theorem hardware_report_never {σ : Type} {node : Node σ} (h : node.agent.policy = .never)
    (hw : Hardware σ) (events : List Event) :
    (node.report hw events).hardware = node.hardware := by
  rw [report, h]
  rfl

/-! ## Steps -/

/-- A step listens, begins its request and reports. -/
theorem step_asking {node : Node Bus} (h : node.AtRest)
    (hworks : node.hardware.failWrites = false) :
    (node.step Bench.hardware).1
      = ((node.listened Bench.hardware).asking (node.asks? Bench.hardware)).report Bench.hardware
        (node.step Bench.hardware).2 := by
  have hlistened : (node.listened Bench.hardware).hardware.failWrites = false := by
    rcases listen_line node .empty with ⟨line, hline⟩
    rw [← listen_eq_listened h Bench.hardware .empty, hline]
    exact hworks
  rw [step_eq, work_eq_poll h, asks?, Bench.now_hardware]
  -- What is due is settled behind the listening, with the time that it has taken.
  by_cases hdue : (node.listened Bench.hardware).agent.master.isDue
      (node.listened Bench.hardware).hardware.now = true
  · rw [poll_of_due hlistened hdue, if_pos hdue]
    rfl
  · rw [poll_of_not_due hdue, if_neg hdue]

/-- The hardware is as the request has left it, as nobody is woken on the bench. -/
theorem hardware_step_asking {node : Node Bus} (h : node.AtRest)
    (hpolicy : node.agent.policy = .never) (hworks : node.hardware.failWrites = false) :
    (node.step Bench.hardware).1.hardware
      = ((node.listened Bench.hardware).asking (node.asks? Bench.hardware)).hardware := by
  have hasleep : ((node.listened Bench.hardware).asking (node.asks? Bench.hardware)).agent.policy
      = .never := by
    cases node.asks? Bench.hardware <;> exact hpolicy
  rw [step_asking h hworks, hardware_report_never hasleep]

/-- The bus after a step: some bytes have been read, and the request is on its
    way. -/
theorem hardware_step {node : Node Bus} (h : node.AtRest) (hpolicy : node.agent.policy = .never)
    (hworks : node.hardware.failWrites = false) :
    ∃ line, (node.step Bench.hardware).1.hardware
      = ({ node.hardware with toBridge := line } : Bus).carrying (node.asks? Bench.hardware) := by
  rcases listen_line node .empty with ⟨line, hline⟩
  rw [listen_eq_listened h] at hline
  refine ⟨line, ?_⟩
  rw [hardware_step_asking h hpolicy hworks, hardware_asking, hline]

/-- The action slot after a step: only a request empties it, and carries what
    was in it. -/
theorem action_step {node : Node Bus} (h : node.AtRest)
    (hworks : node.hardware.failWrites = false) :
    (node.step Bench.hardware).1.mailbox.action
        = (node.asks? Bench.hardware).elim node.mailbox.action (fun _ => 0) ∧
      ∀ request ∈ node.asks? Bench.hardware, request.action = node.mailbox.pendingAction := by
  refine ⟨?_, ?_⟩
  · rw [step_asking h hworks, action_report]
    cases node.asks? Bench.hardware <;> rfl
  · intro request hrequest
    rw [(eq_of_asks hrequest).2]

end Node

end DoorBus

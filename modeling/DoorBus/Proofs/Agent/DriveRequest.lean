import DoorBus.Proofs.Agent.Step
import DoorBus.Proofs.Master.Requests

/-!
# What Becomes of a Drive Request

The drive asks for an action in its answer to a command poll. From there the
code travels to the mailbox as a note, in the queue of the step. A step brings
one answer at most, so there is one such note at most. But the queue has
limited room, and notes of broadcasts and dropped frames may take all of it
before the answer comes.

So it depends on how many notes precede the request in its step. If they are
fewer than the queue has room for, the host finds the request, and is woken
for it. If not, the request is gone: the slot is as before, and nothing in
what the step reports tells of it. The last theorem is such a step. A note
is all that carries a request, so a full queue loses more than the note.

## Main definitions

* `Node.marks`: The marks of a step.
* `Desk`: A small bench for two steps.

## Theorems

* `length_requests_le`: A step has one request at most.
* `driveRequest_report`, `hardware_report`: What the host gets of the notes.
* `requests_marks`: The request of a step is that of the answer.
* `step_request`: What becomes of a request.
* `step_request_found`, `step_request_lost`: One that is found, and one that is
  lost.
-/

namespace DoorBus

namespace Node

variable {σ : Type}

/-- The marks that the reference makes of a step. -/
def marks (hw : Hardware σ) (node : Node σ) : List Mark :=
  node.agent.master.marks (node.stepWatch hw).past

/-- A step listens first, and sends afterwards. -/
theorem past_stepWatch (hw : Hardware σ) (node : Node σ) :
    ∃ heard done, (node.stepWatch hw).past = heard ++ done ∧
      (∀ occurrence ∈ heard, occurrence.isInbound = true) ∧
      ∀ occurrence ∈ done, occurrence.isInbound = false := by
  rcases past_callAll (Watch.on node.agent.master) (isInbound_listenCalls hw node) with
    ⟨heard, hheard, hinbound⟩
  rcases past_callAll ((Watch.on node.agent.master).callAll (node.listenCalls hw))
      (isInbound_pollCalls hw (node.listened hw)) with ⟨done, hdone, houtbound⟩
  refine ⟨heard, done, ?_, hinbound, houtbound⟩
  rw [stepWatch, calls, Watch.callAll_append, hdone, hheard]
  rfl

/-- A step has one request at most. -/
theorem length_requests_le (hw : Hardware σ) (node : Node σ) :
    (requests (node.marks hw)).length ≤ 1 := by
  rcases past_stepWatch hw node with ⟨heard, done, hpast, hinbound, houtbound⟩
  -- What is done behind the listening brings no answer.
  rw [marks, Master.marks, Master.followed, hpast, Flight.follow_append, requests_append,
    Flight.requests_follow_outbound houtbound, List.append_nil]
  exact Nat.le_trans (length_requests_le_marks _) (Flight.length_follow_inbound hinbound)

/-! ## Reporting -/

/-- The status word is written behind the drive requests, and leaves them alone. -/
theorem driveRequest_report (hw : Hardware σ) (node : Node σ) (events : List Event) :
    (node.report hw events).mailbox.driveRequest
      = (reportRequests node.mailbox events).driveRequest := by
  rw [report]
  by_cases hsame : node.agent.master.snapshot = node.agent.published
  · simp only [if_pos hsame]
  · simp only [if_neg hsame]
    rfl

/-- The host is woken if a request is noted, and finds the mailbox as it is
    left. -/
theorem hardware_report {hw : Hardware σ} {node : Node σ} {events : List Event}
    (hpolicy : node.agent.policy = .onTransition)
    (h : events.filterMap Event.driveRequest? ≠ []) :
    (node.report hw events).hardware
      = hw.wakeHost (node.report hw events).mailbox node.hardware := by
  have hany : (events.any fun event => event.driveRequest?.isSome) = true := by
    rcases List.exists_mem_of_ne_nil _ h with ⟨code, hcode⟩
    rcases List.mem_filterMap.mp hcode with ⟨event, hevent, hrequest⟩
    exact List.any_eq_true.mpr ⟨event, hevent, by rw [hrequest]; rfl⟩
  rw [report]
  simp only [hpolicy, WakePolicy.shouldWake, hany, Bool.or_true, if_true]

/-- A slot that holds a code gives it to the host. -/
theorem takeDriveRequest_of_slot {mailbox : Mailbox} {code : UInt16} (hne : code ≠ 0)
    (h : mailbox.driveRequest = code.toUInt32) : mailbox.takeDriveRequest.2 = some code := by
  rw [Mailbox.takeDriveRequest, h]
  simp only [UInt16.toUInt16_toUInt32, if_neg hne]

/-! ## Requests that are found and lost -/

/-- The code in an answer to a command poll is the only request of the step. -/
theorem requests_marks {hw : Hardware σ} {node : Node σ} {response : Response} {code : UInt16}
    (hanswered : .resolved .commandPoll (.answered response) ∈ node.marks hw)
    (hcode : response.registers[2]? = some code) (hne : code ≠ 0) :
    requests (node.marks hw) = [code] := by
  have hrequest : response.driveRequest? = some code := by
    rw [Response.driveRequest?, kind_of_answered hanswered]
    simp only [hcode]
    exact Option.filter_eq_some_iff.mpr ⟨rfl, bne_iff_ne.mpr hne⟩
  have hmem := mem_requests hanswered hrequest
  -- There is one, and there is no more than one.
  have hone : (requests (node.marks hw)).length = 1 :=
    Nat.le_antisymm (length_requests_le hw node) (List.length_pos_of_mem hmem)
  rcases List.length_eq_one_iff.mp hone with ⟨only, honly⟩
  rw [honly] at hmem ⊢
  rw [List.mem_singleton.mp hmem]

/-- What becomes of the code in an answer to a command poll. Among all that
    the step notes there is one note of it. If fewer notes precede it than the
    queue has room for, then the slot holds the code behind the step, the host
    takes it, and an agent that wakes the host does so for it. Otherwise the
    slot is as before the step, and the step reports no request. -/
theorem step_request {hw : Hardware σ} {timing : Timing} {policy : WakePolicy} {node : Node σ}
    {response : Response} {code : UInt16} (h : Reachable hw timing policy node)
    (hanswered : .resolved .commandPoll (.answered response) ∈ node.marks hw)
    (hcode : response.registers[2]? = some code) (hne : code ≠ 0) :
    ∃ before after, (node.work hw .unbounded).2.events = before ++ .driveRequest code :: after ∧
      (before.length < EventQueue.capacity →
        (node.step hw).1.mailbox.driveRequest = code.toUInt32 ∧
        (node.step hw).1.mailbox.takeDriveRequest.2 = some code ∧
        (node.agent.policy = .onTransition → (node.step hw).1.hardware
          = hw.wakeHost (node.step hw).1.mailbox (node.work hw .empty).1.hardware)) ∧
      (EventQueue.capacity ≤ before.length →
        (node.step hw).1.mailbox.driveRequest = node.mailbox.driveRequest ∧
        (node.step hw).2.filterMap Event.driveRequest? = []) := by
  have hrest := atRest_of_reachable h
  have hworks := work_works hw (Watch.inStep_on hrest.settled) hrest.owes_eq node rfl
  -- Among all notes of the step, kept or not, the code is the only request.
  have hrequests : (node.stepWatch hw).notes.filterMap Event.driveRequest? = [code] := by
    rw [requests_of_course (inStep_stepWatch hrest hw).course]
    exact requests_marks hanswered hcode hne
  rcases split_at_request hrequests with ⟨before, after, hsplit, htake⟩
  rcases htake EventQueue.capacity with ⟨hroom, hfull⟩
  refine ⟨before, after, ?_, fun hlt => ?_, fun hle => ?_⟩
  · rw [work_eq hrest, EventQueue.pushAll_unbounded, hsplit]
  · have hslot : (node.step hw).1.mailbox.driveRequest = code.toUInt32 := by
      rw [step_of_atRest hrest, driveRequest_report, reportRequests, hroom hlt]
      rfl
    refine ⟨hslot, takeDriveRequest_of_slot hne hslot, fun hpolicy => ?_⟩
    have hpolicy' : (node.worked hw).agent.policy = .onTransition := by
      rw [hworks.agent_eq, hpolicy]
    rw [step_of_atRest hrest, work_eq hrest]
    exact hardware_report hpolicy' (by rw [hroom hlt]; exact List.cons_ne_nil _ _)
  · rw [step_of_atRest hrest]
    refine ⟨?_, hfull hle⟩
    rw [driveRequest_report, reportRequests, hfull hle, ← hworks.mailbox_eq]
    rfl

end Node

/-! ## Two steps -/

/-- A bench for an agent: a clock that stands still, bytes that wait to be
    read, and a count of wakes. Requests are always sent. -/
structure Desk where
  /-- The clock. -/
  clock : Millis
  /-- The bytes that wait. -/
  waiting : List UInt8 := []
  /-- Number of times that the host was woken. -/
  wakes : Nat := 0
  deriving DecidableEq

namespace Desk

/-- What an agent runs on at a desk. -/
def hardware : Hardware Desk where
  transmit _ desk := (desk, .ok ())
  receive count desk := ({ desk with waiting := desk.waiting.drop count },
    .ok (desk.waiting.take count))
  now desk := desk.clock
  pause span desk := { desk with clock := desk.clock + span }
  wakeHost _ desk := { desk with wakes := desk.wakes + 1 }

/-- The answer of a drive to a bus scan. -/
def scanAnswer : List UInt8 :=
  [0x02, 0x17, 0x0A, 0x00, 0x00, 0x00, 0x05, 0x04, 0x30, 0x10, 0xFF, 0xA8, 0x45, 0x8F, 0x06]

/-- The answer to a command poll that asks for the action 0x10. -/
def pollAnswer : List UInt8 :=
  [0x02, 0x17, 0x10, 0x00, 0x00, 0x00, 0x01, 0x00, 0x10, 0x00, 0x00, 0x00, 0x00, 0x00, 0x00,
    0x00, 0x00, 0x00, 0x00, 0xB3, 0xA8]

/-- An exception in answer to any poll. -/
def exceptionAnswer : List UInt8 :=
  [0x02, 0x97, 0x04, 0xBF, 0xF3]

/-- A broadcast without registers, which is no status. -/
def emptyBroadcast : List UInt8 :=
  [0x00, 0x10, 0x00, 0x00, 0x00, 0x00, 0x00, 0x19, 0x90]

/-- An agent that has polled a known drive, with some bytes behind that. -/
def asked (bytes : List UInt8) : Node Desk :=
  let started := Node.start (.ofMode .lowPower) .onTransition .new { clock := 1000 }
  let scanned : Node Desk :=
    { (started.step hardware).1 with hardware := { clock := 1010, waiting := scanAnswer } }
  let linked : Node Desk := { (scanned.step hardware).1 with hardware := { clock := 2000 } }
  { (linked.step hardware).1 with hardware := { clock := 2010, waiting := bytes } }

theorem asked_reachable (bytes : List UInt8) :
    Node.Reachable hardware (.ofMode .lowPower) .onTransition (asked bytes) :=
  .other _ _ (.step (.other _ _ (.step (.other _ _ (.step (.start _ _))))))

/-- What the drive answered, as it is read. -/
def answer : Response :=
  ⟨.commandPoll, [0, 1, 0x10, 0, 0, 0, 0, 0], by decide⟩

end Desk

namespace Node

open Desk (asked asked_reachable answer pollAnswer emptyBroadcast)

/-- A request that comes alone is found. -/
theorem step_request_found :
    ((asked pollAnswer).step Desk.hardware).1.mailbox.takeDriveRequest.2 = some 0x10 ∧
      ((asked pollAnswer).step Desk.hardware).1.hardware.wakes = 1 := by
  have hanswered : .resolved .commandPoll (.answered answer) ∈ (asked pollAnswer).marks
      Desk.hardware := by
    decide +kernel
  have hcode : answer.registers[2]? = some 0x10 := rfl
  rcases step_request (asked_reachable pollAnswer) hanswered hcode (by decide) with
    ⟨before, after, hsplit, hfound, _⟩
  have htotal : ((asked pollAnswer).work Desk.hardware .unbounded).2.events.length = 2 := by
    decide +kernel
  have hroom : before.length < EventQueue.capacity := by
    rw [hsplit, List.length_append, List.length_cons] at htotal
    rw [EventQueue.capacity]
    omega
  rcases hfound hroom with ⟨_, htaken, hwoken⟩
  refine ⟨htaken, ?_⟩
  rw [hwoken (by decide +kernel)]
  decide +kernel

/-- Sixteen broadcasts that are no status take the whole queue, and the
    request that comes behind them in the same step is lost. -/
theorem step_request_lost :
    let node := asked ((List.replicate 16 emptyBroadcast).flatten ++ pollAnswer)
    Reachable Desk.hardware (.ofMode .lowPower) .onTransition node ∧
      .resolved .commandPoll (.answered answer) ∈ node.marks Desk.hardware ∧
      (node.step Desk.hardware).1.mailbox.driveRequest = 0 ∧
      (node.step Desk.hardware).1.mailbox.takeDriveRequest.2 = none ∧
      (node.step Desk.hardware).1.hardware.wakes = 0 := by
  refine ⟨asked_reachable _, ?_, ?_, ?_, ?_⟩
  · decide +kernel
  · decide +kernel
  · decide +kernel
  · decide +kernel

end Node

end DoorBus

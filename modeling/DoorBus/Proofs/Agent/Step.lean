import DoorBus.Agent.Basic
import DoorBus.Proofs.Master.Watch

/-!
# A Step of an Agent Is a Run of Its Master

An agent does nothing to its bus master but call it. This module lists the
calls that a step makes: what was read and a look at the clock, then a poll,
and how sending its request went if there was one. It shows that working
through the list is all that a step does to the master and to the notes, and
that the list is one that a caller may make. So whatever is known of runs of a
master under a caller who reports holds of the master inside an agent.

## Main definitions

* `Hardware.reads`, `Hardware.reportCall`: The calls that the hardware decides.
* `Node.listenCalls`, `Node.pollCalls`, `Node.calls`: The calls of a step.
* `Node.listened`, `Node.polled`, `Node.worked`: A node behind these calls.
* `Node.work`: A step without the report to the host.
* `Node.Works`: A part of a step that works by calls.
* `Node.stepWatch`: What occurs in a step, and all that it notes.
* `Node.AtRest`: A node between two steps.
* `Node.Reachable`: What agents, hosts and hardware can lead to.

## Theorems

* `works_then`: Parts of a step can be put together.
* `read_works`, `listen_works`, `poll_works`: The parts.
* `work_works`: A step works by its calls.
* `step_of_atRest`: What a step gives.
* `watched_of_reachable`: The master inside an agent is a watched one.
-/

namespace DoorBus

open Master (Call)

/-- The calls that bring what was read, in at most so many reads. -/
def Hardware.reads {σ : Type} (hw : Hardware σ) : Nat → σ → σ × List Call
  | 0, hardware => (hardware, [])
  | reads + 1, hardware =>
    match hw.receive Agent.chunkSize hardware with
    | (hardware, .error _) => (hardware, [])
    | (hardware, .ok bytes) =>
      if bytes.isEmpty then
        (hardware, [])
      else if bytes.length < Agent.chunkSize then
        (hardware, [.hear (hw.now hardware) bytes])
      else
        ((hw.reads reads hardware).1, .hear (hw.now hardware) bytes :: (hw.reads reads hardware).2)

/-- The call that tells how sending a request goes. -/
def Hardware.reportCall {σ : Type} (hw : Hardware σ) (request : List UInt8) (hardware : σ) : Call :=
  match hw.transmit request hardware with
  | (hardware, .ok ()) => .sent (hw.now hardware)
  | (_, .error _) => .unsent

namespace Node

variable {σ : Type}

/-- The hardware behind the listening. -/
def heard (hw : Hardware σ) (node : Node σ) : σ :=
  hw.tick (hw.reads Agent.readsPerStep node.hardware).1

/-- The calls by which a node listens. -/
def listenCalls (hw : Hardware σ) (node : Node σ) : List Call :=
  (hw.reads Agent.readsPerStep node.hardware).2 ++ [.check (hw.now (node.heard hw))]

/-- A node that has listened. -/
def listened (hw : Hardware σ) (node : Node σ) : Node σ :=
  ({ node with hardware := node.heard hw }).withMaster
    (node.agent.master.callAll (node.listenCalls hw))

/-- The call that polls the drive if it is time. -/
def pollCall (hw : Hardware σ) (node : Node σ) : Call :=
  .poll (hw.now node.hardware) node.mailbox.pendingAction

/-- The calls by which a node polls. -/
def pollCalls (hw : Hardware σ) (node : Node σ) : List Call :=
  match node.agent.master.request? (node.pollCall hw) with
  | none => [node.pollCall hw]
  | some request => [node.pollCall hw, hw.reportCall request node.hardware]

/-- A node that has polled. Only a request takes the action, and needs the
    line. -/
def polled (hw : Hardware σ) (node : Node σ) : Node σ :=
  match node.agent.master.request? (node.pollCall hw) with
  | none => node
  | some request =>
    ({ node with
        mailbox := node.mailbox.takeAction.1
        hardware := (hw.transmit request node.hardware).1 }).withMaster
      (node.agent.master.callAll (node.pollCalls hw))

/-- The calls of a step. -/
def calls (hw : Hardware σ) (node : Node σ) : List Call :=
  node.listenCalls hw ++ (node.listened hw).pollCalls hw

/-- A node that has listened and polled. -/
def worked (hw : Hardware σ) (node : Node σ) : Node σ :=
  (node.listened hw).polled hw

/-- A step without the report to the host. -/
def work (hw : Hardware σ) (node : Node σ) (queue : EventQueue) : Node σ × EventQueue :=
  let (node, queue) := node.listen hw queue
  node.poll hw queue

/-- The report comes last, so all that a step does to the master is done by then. -/
theorem step_eq (hw : Hardware σ) (node : Node σ) :
    node.step hw = ((node.work hw .empty).1.report hw (node.work hw .empty).2.events,
      (node.work hw .empty).2.events) := by
  rw [step, work]

/-- A part of a step works by calls on the master, which the caller may make.
    Beside the master it touches only the action slot and the hardware. -/
structure Works (before : Node σ) (watch : Watch) (calls : List Call) (after : Node σ)
    (operation : EventQueue → Node σ × EventQueue) : Prop where
  permits : watch.PermitsAll calls
  does : ∀ queue : EventQueue, operation (queue.pushAll watch.notes)
    = (after, queue.pushAll (watch.callAll calls).notes)
  agent_eq : after.agent = { before.agent with master := before.agent.master.callAll calls }
  mailbox_eq : { after.mailbox with action := before.mailbox.action } = before.mailbox

/-- Parts of a step can be put together. -/
theorem works_then {before middle after : Node σ} {watch : Watch} {xs ys : List Call}
    {first : EventQueue → Node σ × EventQueue}
    (second : Node σ → EventQueue → Node σ × EventQueue)
    (hfirst : Works before watch xs middle first)
    (hsecond : Works middle (watch.callAll xs) ys after (second middle)) :
    Works before watch (xs ++ ys) after fun queue => second (first queue).1 (first queue).2 where
  permits := Watch.permitsAll_append hfirst.permits hsecond.permits
  does queue := by
    rw [hfirst.does, hsecond.does, Watch.callAll_append]
  agent_eq := by rw [hsecond.agent_eq, hfirst.agent_eq, Master.callAll_append]
  mailbox_eq := by rw [← hfirst.mailbox_eq, ← hsecond.mailbox_eq]

/-! ## Listening -/

/-- Reading only ever brings what was heard, so none of its calls begins a poll
    or tells how one was sent. -/
theorem isInbound_reads (hw : Hardware σ) (reads : Nat) (hardware : σ) :
    ∀ call ∈ (hw.reads reads hardware).2, call.isInbound = true := by
  induction reads generalizing hardware with
  | zero => exact fun call hcall => absurd hcall List.not_mem_nil
  | succ reads ih =>
      unfold Hardware.reads
      cases hw.receive Agent.chunkSize hardware with
      | mk hardware result =>
          cases result with
          | error error => exact fun call hcall => absurd hcall List.not_mem_nil
          | ok bytes =>
              simp only []
              by_cases hempty : bytes.isEmpty = true
              · rw [if_pos hempty]
                exact fun call hcall => absurd hcall List.not_mem_nil
              rw [if_neg hempty]
              by_cases hpart : bytes.length < Agent.chunkSize
              · rw [if_pos hpart]
                intro call hcall
                rw [List.mem_singleton.mp hcall]
                rfl
              · rw [if_neg hpart]
                intro call hcall
                rcases List.mem_cons.mp hcall with rfl | hrest
                · rfl
                · exact ih hardware call hrest

theorem isInbound_listenCalls (hw : Hardware σ) (node : Node σ) :
    ∀ call ∈ node.listenCalls hw, call.isInbound = true := by
  intro call hcall
  rcases List.mem_append.mp hcall with hread | hcheck
  · exact isInbound_reads hw _ _ call hread
  · rw [List.mem_singleton.mp hcheck]
    rfl

/-- A caller may always bring what comes in. Only reports need a request that is
    on its way. -/
theorem permitsAll_of_isInbound {watch : Watch} {calls : List Call}
    (h : ∀ call ∈ calls, call.isInbound = true) : watch.PermitsAll calls := by
  induction calls generalizing watch with
  | nil => trivial
  | cons call calls ih =>
      refine ⟨fun hreport => ?_, ih fun other hother => h other (List.mem_cons_of_mem call hother)⟩
      have hinbound := h call List.mem_cons_self
      cases call with
      | poll now action => exact absurd hreport Bool.false_ne_true
      | hear now bytes => exact absurd hreport Bool.false_ne_true
      | check now => exact absurd hreport Bool.false_ne_true
      | sent now => exact absurd hinbound Bool.false_ne_true
      | unsent => exact absurd hinbound Bool.false_ne_true

variable {origin : Master} {watch : Watch}

/-- Reading brings the master all chunks that were read. The induction is on
    the reads that are left, from any point of the run. -/
theorem read_works (hw : Hardware σ) (reads : Nat) (h : watch.InStep origin) (node : Node σ)
    (hmaster : node.agent.master = watch.master) :
    Works node watch (hw.reads reads node.hardware).2
      (({ node with hardware := (hw.reads reads node.hardware).1 }).withMaster
        (node.agent.master.callAll (hw.reads reads node.hardware).2))
      (node.read hw reads) := by
  refine ⟨permitsAll_of_isInbound (isInbound_reads hw reads node.hardware), fun queue => ?_, rfl,
    rfl⟩
  induction reads generalizing node watch with
  | zero => rfl
  | succ reads ih =>
      rw [Hardware.reads, read]
      cases hw.receive Agent.chunkSize node.hardware with
      | mk hardware result =>
          cases result with
          | error error => rfl
          | ok bytes =>
              simp only []
              by_cases hempty : bytes.isEmpty = true
              · simp only [if_pos hempty]
                rfl
              -- A chunk is one call, which leaves the queue with the notes of the run.
              have hpermits : watch.Permits (.hear (hw.now hardware) bytes) := fun hreport =>
                absurd hreport Bool.false_ne_true
              have hcall := Watch.call_pushAll h hpermits queue
              rw [← hmaster, Master.call] at hcall
              simp only [if_neg hempty, hcall]
              by_cases hpart : bytes.length < Agent.chunkSize
              · simp only [if_pos hpart]
                rw [Master.callAll, List.foldl_cons, List.foldl_nil, hmaster]
                rfl
              · simp only [if_neg hpart]
                have hrest := ih (Watch.inStep_call h hpermits)
                  (({ node with hardware }).withMaster
                    (watch.call (.hear (hw.now hardware) bytes)).master) rfl
                rw [Master.callAll, List.foldl_cons, hmaster]
                exact hrest

/-- A look at the clock, which is the second part of listening. -/
def look (hw : Hardware σ) (node : Node σ) (queue : EventQueue) : Node σ × EventQueue :=
  let hardware := hw.tick node.hardware
  let (master, queue) := node.agent.master.checkTimeouts (hw.now hardware) queue
  (({ node with hardware }).withMaster master, queue)

/-- The look is at the clock as it is then, which may have gone on since the
    last chunk was dated. -/
theorem look_works (hw : Hardware σ) (h : watch.InStep origin) (node : Node σ)
    (hmaster : node.agent.master = watch.master) :
    Works node watch [.check (hw.now (hw.tick node.hardware))]
      (({ node with hardware := hw.tick node.hardware }).withMaster
        (node.agent.master.callAll [.check (hw.now (hw.tick node.hardware))]))
      (node.look hw) := by
  have hpermits : watch.PermitsAll [.check (hw.now (hw.tick node.hardware))] :=
    ⟨fun hreport => absurd hreport Bool.false_ne_true, trivial⟩
  refine ⟨hpermits, fun queue => ?_, rfl, rfl⟩
  have hcall := Watch.call_pushAll h hpermits.1 queue
  rw [← hmaster, Master.call] at hcall
  rw [look, hcall, Master.callAll, List.foldl_cons, List.foldl_nil, hmaster]
  rfl

/-- Listening is reading and then looking, and so works by the calls of both. -/
theorem listen_works (hw : Hardware σ) (h : watch.InStep origin) (node : Node σ)
    (hmaster : node.agent.master = watch.master) :
    Works node watch (node.listenCalls hw) (node.listened hw) (node.listen hw) := by
  have hread := read_works hw Agent.readsPerStep h node hmaster
  have hmaster' := Watch.master_callAll watch (hw.reads Agent.readsPerStep node.hardware).2
  have hlook := look_works hw (Watch.inStep_callAll h hread.permits)
    (({ node with hardware := (hw.reads Agent.readsPerStep node.hardware).1 }).withMaster
      (node.agent.master.callAll (hw.reads Agent.readsPerStep node.hardware).2))
    (by rw [hmaster', ← hmaster]; rfl)
  have hboth := works_then (look hw) hread hlook
  rw [listened, listenCalls, Master.callAll_append]
  exact hboth

/-! ## Polling -/

theorem poll_works_of_not_due (hw : Hardware σ) (node : Node σ)
    (hmaster : node.agent.master = watch.master)
    (hdue : ¬node.agent.master.isDue (hw.now node.hardware) = true) :
    Works node watch (node.pollCalls hw) (node.polled hw) (node.poll hw) := by
  rcases Master.poll_of_not_due hdue node.mailbox.pendingAction with ⟨hnone, hcall⟩
  have hcalls : node.pollCalls hw = [node.pollCall hw] := by
    rw [pollCalls, pollCall, hnone]
  have hpolled : node.polled hw = node := by
    rw [polled, pollCall, hnone]
  have hsame : node.agent.master.callAll [node.pollCall hw] = node.agent.master := by
    rw [Master.callAll, List.foldl_cons, List.foldl_nil, pollCall, hcall]
  rw [hcalls, hpolled]
  refine ⟨⟨fun hreport => absurd hreport Bool.false_ne_true, trivial⟩, fun queue => ?_, ?_, rfl⟩
  · -- A poll that is not due notes nothing, and so adds nothing to the watch.
    have hnotes : (watch.callAll [node.pollCall hw]).notes = watch.notes := by
      rw [Watch.callAll, List.foldl_cons, List.foldl_nil, Watch.call, ← hmaster, pollCall, hcall]
      exact List.append_nil _
    rw [poll, Master.beginIfDue_of_not_due hdue, hnotes]
    rfl
  · rw [hsame]

/-- A node whose poll has begun, with the action taken. -/
def begun (hw : Hardware σ) (node : Node σ) : Node σ :=
  ({ node with mailbox := node.mailbox.takeAction.1 }).withMaster
    (node.agent.master.begun (hw.now node.hardware))

/-- Sending settles what the agent owes: whichever way it goes, the master is
    told with one call. -/
theorem transmit_works (hw : Hardware σ) (h : watch.InStep origin) (howes : watch.owes = true)
    (node : Node σ) (hmaster : node.agent.master = watch.master) (request : List UInt8) :
    Works node watch [hw.reportCall request node.hardware]
      (({ node with hardware := (hw.transmit request node.hardware).1 }).withMaster
        (node.agent.master.callAll [hw.reportCall request node.hardware]))
      (node.transmit hw request) := by
  have hpermits : watch.Permits (hw.reportCall request node.hardware) := fun _ => howes
  refine ⟨⟨hpermits, trivial⟩, fun queue => ?_, rfl, rfl⟩
  have hcall := Watch.call_pushAll h hpermits queue
  rw [Master.callAll, List.foldl_cons, List.foldl_nil, Watch.callAll, List.foldl_cons,
    List.foldl_nil, transmit, hmaster]
  -- Which report is made depends on the write, and both are owed alike.
  cases hsend : hw.transmit request node.hardware with
  | mk hardware result =>
      cases result with
      | ok done =>
          have hreport : hw.reportCall request node.hardware = .sent (hw.now hardware) := by
            rw [Hardware.reportCall, hsend]
          rw [hreport, Master.call, Prod.mk.injEq] at hcall
          rw [hreport]
          simp only [hcall.1, hcall.2]
          rfl
      | error error =>
          have hreport : hw.reportCall request node.hardware = .unsent := by
            rw [Hardware.reportCall, hsend]
          rw [hreport, Master.call] at hcall
          rw [hreport]
          simp only [hcall]
          rfl

/-- A call to poll that is due does to the master what beginning a poll does.
    The action makes no difference to it. -/
theorem callAll_pollCall (hw : Hardware σ) (node : Node σ)
    (hdue : node.agent.master.isDue (hw.now node.hardware) = true) :
    node.agent.master.callAll [node.pollCall hw]
      = node.agent.master.begun (hw.now node.hardware) := by
  exact congrArg Prod.fst ((Master.poll_of_due hdue node.mailbox.pendingAction).2 .unbounded)

/-- Beginning a poll is a part of the step by itself, since the request is sent
    only behind it. -/
theorem begin_works (hw : Hardware σ) (h : watch.InStep origin) (node : Node σ)
    (hmaster : node.agent.master = watch.master)
    (hdue : node.agent.master.isDue (hw.now node.hardware) = true) :
    Works node watch [node.pollCall hw] (node.begun hw) fun queue => (node.begun hw,
      queue.push (.sent node.agent.master.nextKind node.mailbox.pendingAction)) := by
  have hpermits : watch.Permits (node.pollCall hw) := fun hreport =>
    absurd hreport Bool.false_ne_true
  refine ⟨⟨hpermits, trivial⟩, fun queue => ?_, ?_, rfl⟩
  · have hcall := (Master.poll_of_due hdue node.mailbox.pendingAction).2
    have hpushed := Watch.call_pushAll h hpermits queue
    rw [← hmaster] at hpushed
    exact Prod.ext rfl (Prod.mk.inj ((hcall _).symm.trans hpushed)).2
  · rw [callAll_pollCall hw node hdue]
    rfl

theorem poll_works_of_due (hw : Hardware σ) (h : watch.InStep origin) (howes : watch.owes = false)
    (node : Node σ) (hmaster : node.agent.master = watch.master)
    (hdue : node.agent.master.isDue (hw.now node.hardware) = true) :
    Works node watch (node.pollCalls hw) (node.polled hw) (node.poll hw) := by
  let request := (Request.mk node.agent.master.nextKind node.mailbox.pendingAction).bytes
  have hrequest : node.agent.master.request? (node.pollCall hw) = some request :=
    (Master.poll_of_due hdue node.mailbox.pendingAction).1
  have hbegin := Master.beginIfDue_of_due hdue Mailbox.takeAction node.mailbox
  have hbegun := begin_works hw h node hmaster hdue
  have howes' : (watch.call (node.pollCall hw)).owes = true := by
    rw [Watch.call, ← hmaster, hrequest, howes]
    rfl
  have hmaster' : (node.begun hw).agent.master = (watch.call (node.pollCall hw)).master := by
    rw [begun, ← callAll_pollCall hw node hdue, hmaster]
    rfl
  have hboth := works_then (transmit hw · request) hbegun
    (transmit_works hw (Watch.inStep_callAll h hbegun.permits) howes' _ hmaster' request)
  -- What the two parts come to is what was said of the whole.
  have hcalls : node.pollCalls hw
      = [node.pollCall hw] ++ [hw.reportCall request (node.begun hw).hardware] := by
    rw [pollCalls, hrequest]
    rfl
  have hpolled : node.polled hw
      = (({ node.begun hw with
            hardware := (hw.transmit request (node.begun hw).hardware).1 }).withMaster
        ((node.begun hw).agent.master.callAll
          [hw.reportCall request (node.begun hw).hardware])) := by
    rw [polled, hrequest, hcalls, Master.callAll_append, callAll_pollCall hw node hdue]
    rfl
  have hpoll : node.poll hw = fun queue => (node.begun hw).transmit hw request
      (queue.push (.sent node.agent.master.nextKind node.mailbox.pendingAction)) := by
    funext queue
    rw [poll, hbegin]
    rfl
  rw [hcalls, hpolled, hpoll]
  exact hboth

/-- Due or not, polling works by its calls. -/
theorem poll_works (hw : Hardware σ) (h : watch.InStep origin) (howes : watch.owes = false)
    (node : Node σ) (hmaster : node.agent.master = watch.master) :
    Works node watch (node.pollCalls hw) (node.polled hw) (node.poll hw) := by
  by_cases hdue : node.agent.master.isDue (hw.now node.hardware) = true
  · exact poll_works_of_due hw h howes node hmaster hdue
  · exact poll_works_of_not_due hw node hmaster hdue

/-! ## Steps -/

/-- What comes in leaves a request that is on its way where it is. -/
theorem owes_callAll_of_isInbound {calls : List Call}
    (h : ∀ call ∈ calls, call.isInbound = true) : (watch.callAll calls).owes = watch.owes := by
  induction calls generalizing watch with
  | nil => rfl
  | cons call calls ih =>
      have hcall : (watch.call call).owes = watch.owes := by
        have hinbound := h call List.mem_cons_self
        cases call with
        | hear now bytes => exact Bool.or_false _
        | check now => exact Bool.or_false _
        | poll now action => exact absurd hinbound Bool.false_ne_true
        | sent now => exact absurd hinbound Bool.false_ne_true
        | unsent => exact absurd hinbound Bool.false_ne_true
      rw [Watch.callAll_cons, ih fun other hother => h other (List.mem_cons_of_mem call hother),
        hcall]

/-- However sending goes, the call behind it is one that reports. -/
theorem isReport_reportCall (hw : Hardware σ) (request : List UInt8) (hardware : σ) :
    (hw.reportCall request hardware).isReport = true := by
  unfold Hardware.reportCall
  cases hw.transmit request hardware with
  | mk hardware result => cases result <;> rfl

/-- Nothing is heard while polling. -/
theorem isInbound_pollCalls (hw : Hardware σ) (node : Node σ) :
    ∀ call ∈ node.pollCalls hw, call.isInbound = false := by
  unfold pollCalls
  cases node.agent.master.request? (node.pollCall hw) with
  | none => exact List.forall_mem_singleton.mpr rfl
  | some request =>
      have hreport : (hw.reportCall request node.hardware).isInbound = false := by
        unfold Hardware.reportCall
        cases hw.transmit request node.hardware with
        | mk hardware result => cases result <;> rfl
      exact List.forall_mem_cons.mpr ⟨rfl, List.forall_mem_singleton.mpr hreport⟩

/-- An agent owes nothing behind a step. -/
theorem owes_callAll_pollCalls (hw : Hardware σ) (node : Node σ)
    (hmaster : node.agent.master = watch.master) (howes : watch.owes = false) :
    (watch.callAll (node.pollCalls hw)).owes = false := by
  unfold pollCalls
  cases hrequest : node.agent.master.request? (node.pollCall hw) with
  | none =>
      rw [Watch.callAll, List.foldl_cons, List.foldl_nil, Watch.call, howes, ← hmaster, hrequest]
      rfl
  | some request =>
      rw [Watch.callAll, List.foldl_cons, List.foldl_cons, List.foldl_nil, Watch.call,
        isReport_reportCall]
      rfl

/-- A step works by its calls, up to the report to the host. -/
theorem work_works (hw : Hardware σ) (h : watch.InStep origin) (howes : watch.owes = false)
    (node : Node σ) (hmaster : node.agent.master = watch.master) :
    Works node watch (node.calls hw) (node.worked hw) (node.work hw) := by
  have hlisten := listen_works hw h node hmaster
  have howes' := (owes_callAll_of_isInbound (isInbound_listenCalls hw node)).trans howes
  have hmaster' : (node.listened hw).agent.master
      = (watch.callAll (node.listenCalls hw)).master := by
    rw [Watch.master_callAll, ← hmaster]
    rfl
  have hboth := works_then (poll hw) hlisten
    (poll_works hw (Watch.inStep_callAll h hlisten.permits) howes' (node.listened hw) hmaster')
  rw [calls, worked]
  exact hboth

theorem owes_callAll_calls (hw : Hardware σ) (node : Node σ)
    (hmaster : node.agent.master = watch.master) (howes : watch.owes = false) :
    (watch.callAll (node.calls hw)).owes = false := by
  rw [calls, Watch.callAll_append]
  refine owes_callAll_pollCalls hw (node.listened hw) ?_ ?_
  · rw [Watch.master_callAll, ← hmaster]
    rfl
  · rw [owes_callAll_of_isInbound (isInbound_listenCalls hw node), howes]

/-- A step begun anew: what occurs in it, and all that it notes. -/
def stepWatch (hw : Hardware σ) (node : Node σ) : Watch :=
  (Watch.on node.agent.master).callAll (node.calls hw)

/-- No request is on its way, and no outcome is left to be dealt with. -/
structure AtRest (node : Node σ) : Prop where
  settled : node.agent.master.Settled
  owes_eq : (Watch.on node.agent.master).owes = false

/-- Whatever run has led to a master, it is at rest if the run owes nothing. -/
theorem atRest_of_inStep {node : Node σ} (h : watch.InStep origin)
    (hmaster : node.agent.master = watch.master) (howes : watch.owes = false) : node.AtRest where
  settled := hmaster ▸ h.course.settled
  owes_eq := by rw [Watch.on, hmaster, ← h.owes_eq, howes]

/-- From rest, what a node has listened to can be read off its calls. -/
theorem listen_eq_listened {node : Node σ} (h : node.AtRest) (hw : Hardware σ)
    (queue : EventQueue) : (node.listen hw queue).1 = node.listened hw :=
  congrArg Prod.fst ((listen_works hw (Watch.inStep_on h.settled) node rfl).does queue)

/-- A step from rest, as far as the bus is concerned. -/
theorem work_eq {node : Node σ} (h : node.AtRest) (hw : Hardware σ) (queue : EventQueue) :
    node.work hw queue = (node.worked hw, queue.pushAll (node.stepWatch hw).notes) :=
  (work_works hw (Watch.inStep_on h.settled) h.owes_eq node rfl).does queue

/-- The watch that is begun anew with each step keeps in step with the master. -/
theorem inStep_stepWatch {node : Node σ} (h : node.AtRest) (hw : Hardware σ) :
    (node.stepWatch hw).InStep node.agent.master :=
  Watch.inStep_callAll (Watch.inStep_on h.settled)
    (work_works hw (Watch.inStep_on h.settled) h.owes_eq node rfl).permits

/-- What a step gives: the node that worked on the bus reports the notes for
    which there was room. -/
theorem step_of_atRest {node : Node σ} (h : node.AtRest) (hw : Hardware σ) :
    node.step hw = ((node.worked hw).report hw ((node.stepWatch hw).notes.take EventQueue.capacity),
      (node.stepWatch hw).notes.take EventQueue.capacity) := by
  rw [step_eq, work_eq h, EventQueue.pushAll_empty]

/-- What agents, hosts and hardware can lead to, from any memory and hardware
    on. Between two steps of the agent the host may do anything to the
    mailbox, and the hardware may change in any way. -/
inductive Reachable (hw : Hardware σ) (timing : Timing) (policy : WakePolicy) : Node σ → Prop
  /-- The agent starts. -/
  | start (mailbox : Mailbox) (hardware : σ) :
    Reachable hw timing policy (start timing policy mailbox hardware)
  /-- The agent takes a step. -/
  | step {node : Node σ} :
    Reachable hw timing policy node → Reachable hw timing policy (node.step hw).1
  /-- Anything else happens. -/
  | other {node : Node σ} (mailbox : Mailbox) (hardware : σ) :
    Reachable hw timing policy node → Reachable hw timing policy { node with mailbox, hardware }

/-- The master inside an agent is a watched one, and owes nothing between
    steps. -/
theorem watched_of_reachable {hw : Hardware σ} {timing : Timing} {policy : WakePolicy}
    {node : Node σ} (h : Reachable hw timing policy node) :
    ∃ watch, Watch.Watched timing watch ∧ node.agent.master = watch.master ∧
      watch.owes = false := by
  induction h with
  | start mailbox hardware => exact ⟨.on (.new timing), .start, rfl, rfl⟩
  | @step node _ ih =>
      rcases ih with ⟨watch, hwatched, hmaster, howes⟩
      have hworks := work_works hw (Watch.inStep_of_watched hwatched) howes node hmaster
      refine ⟨watch.callAll (node.calls hw), Watch.watched_callAll hwatched hworks.permits, ?_,
        owes_callAll_calls hw node hmaster howes⟩
      have hrest := atRest_of_inStep (Watch.inStep_of_watched hwatched) hmaster howes
      -- The report to the host leaves the master alone.
      rw [step_of_atRest hrest, report, hworks.agent_eq, Watch.master_callAll, hmaster]
  | other mailbox hardware _ ih => exact ih

/-- Every node that can be reached is at rest, so all that is known of a step
    from rest holds of every step there is. -/
theorem atRest_of_reachable {hw : Hardware σ} {timing : Timing} {policy : WakePolicy}
    {node : Node σ} (h : Reachable hw timing policy node) : node.AtRest := by
  rcases watched_of_reachable h with ⟨watch, hwatched, hmaster, howes⟩
  exact atRest_of_inStep (Watch.inStep_of_watched hwatched) hmaster howes

end Node

end DoorBus

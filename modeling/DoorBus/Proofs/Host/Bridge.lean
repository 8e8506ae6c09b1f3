import DoorBus.Host.Bridge

/-!
# What the Log of a Host Says

A bridge on the main core is an agent, and a poll by the host is a step of it.
Beside that it tells the log of the host what happened. The log is a function
that the host lends, and what becomes of the lines is the host's business. So to
say what is in the log, the lines have to be caught where the bridge hands them
over.

`HostTable.noting` does that: it is the same table, over a state that has the
lines beside it. Nothing but the log itself gets at them. A step of the agent
uses all of the table but the log, hence leaves them alone, and what a poll adds
is a line for each event of its step that is not routine. Over any number of
polls these lines stand in the log in the order in which the events occurred,
whatever the host does to the mailbox and to its own state in between.

## Main definitions

* `Hardware.Keeps`: What every operation of the hardware keeps up.
* `HostTable.noting`: A table whose log is a list of lines.
* `HostBridge.Turn`, `HostBridge.serve`: Polls, one after the other.

## Theorems

* `step_keeps`: What the hardware keeps up, a step keeps up.
* `poll_step`: A poll is a step of the agent.
* `keeps_noting`: Only the log gets at the lines.
* `log_start`, `log_poll`: What a bridge adds to the log.
* `log_serve`: What is in the log.
-/

namespace DoorBus

/-! ## What hardware keeps up -/

/-- What every operation of the hardware keeps up. -/
structure Hardware.Keeps {σ : Type} (hw : Hardware σ) (holds : σ → Prop) : Prop where
  transmit : ∀ request state, holds state → holds (hw.transmit request state).1
  receive : ∀ count state, holds state → holds (hw.receive count state).1
  tick : ∀ state, holds state → holds (hw.tick state)
  wakeHost : ∀ mailbox state, holds state → holds (hw.wakeHost mailbox state)

namespace Node

variable {σ : Type} {hw : Hardware σ} {holds : σ → Prop}

/-- Listening only receives, by induction over the reads. -/
theorem read_keeps (hkeeps : hw.Keeps holds) (reads : Nat) {node : Node σ}
    (h : holds node.hardware) (queue : EventQueue) :
    holds (node.read hw reads queue).1.hardware := by
  induction reads generalizing node queue with
  | zero => exact h
  | succ reads ih =>
      have hreceive := hkeeps.receive Agent.chunkSize node.hardware h
      rw [read]
      rcases hresult : hw.receive Agent.chunkSize node.hardware with ⟨hardware, error | bytes⟩
      all_goals rw [hresult] at hreceive
      · exact hreceive
      · simp only []
        by_cases hempty : bytes.isEmpty = true
        · rw [if_pos hempty]
          exact hreceive
        · rw [if_neg hempty]
          by_cases hpart : bytes.length < Agent.chunkSize
          · rw [if_pos hpart]
            exact hreceive
          · rw [if_neg hpart]
            exact @ih (({ node with hardware }).withMaster _) hreceive _

/-- A request goes out in a single operation, and its failure changes the
    hardware no further. -/
theorem transmit_keeps (hkeeps : hw.Keeps holds) {node : Node σ} (h : holds node.hardware)
    (request : List UInt8) (queue : EventQueue) :
    holds (node.transmit hw request queue).1.hardware := by
  have htransmit := hkeeps.transmit request node.hardware h
  rw [transmit]
  rcases hresult : hw.transmit request node.hardware with ⟨hardware, error | done⟩
  all_goals rw [hresult] at htransmit
  · exact htransmit
  · exact htransmit

theorem poll_keeps (hkeeps : hw.Keeps holds) {node : Node σ} (h : holds node.hardware)
    (queue : EventQueue) : holds (node.poll hw queue).1.hardware := by
  rw [poll]
  rcases node.agent.master.beginIfDue (hw.now node.hardware) Mailbox.takeAction node.mailbox queue
    with ⟨master, mailbox, begun, error | request⟩
  · exact h
  · cases request with
    | none => exact h
    | some request =>
        exact @transmit_keeps _ _ _ hkeeps (({ node with mailbox }).withMaster master) h request
          begun

/-- To report a snapshot is to wake the host, or to do nothing. -/
theorem report_keeps (hkeeps : hw.Keeps holds) {node : Node σ} (h : holds node.hardware)
    (events : List Event) : holds (node.report hw events).hardware := by
  rw [report]
  simp only []
  split
  · exact hkeeps.wakeHost _ _ h
  · exact h

/-- What every operation keeps up, a step keeps up, since an agent does nothing
    else to its hardware. -/
theorem step_keeps (hkeeps : hw.Keeps holds) {node : Node σ} (h : holds node.hardware) :
    holds (node.step hw).1.hardware := by
  have hread := read_keeps hkeeps Agent.readsPerStep h .empty
  have hlisten : holds (node.listen hw .empty).1.hardware := hkeeps.tick _ hread
  exact report_keeps hkeeps (poll_keeps hkeeps hlisten _) _

end Node

/-! ## Lines -/

namespace HostTable

variable {β : Type}

/-- The same table over a state with a list of lines beside it, where the log
    puts each line behind those that are there. -/
def noting (table : HostTable β) : HostTable (β × List String) where
  readLine count state :=
    (((table.readLine count state.1).1, state.2), (table.readLine count state.1).2)
  writeLine bytes state :=
    (((table.writeLine bytes state.1).1, state.2), (table.writeLine bytes state.1).2)
  setDirection high state := (table.setDirection high state.1, state.2)
  now state := table.now state.1
  tick state := (table.tick state.1, state.2)
  sleep span state := (table.sleep span state.1, state.2)
  log := some fun line state => (state.1, state.2 ++ [line])

/-- Lines stand behind those before them, in their order. -/
theorem logAll_noting (table : HostTable β) (lines : List String) (state : β × List String) :
    table.noting.logAll lines state = (state.1, state.2 ++ lines) := by
  rw [logAll, noting]
  simp only []
  induction lines generalizing state with
  | nil => rw [List.foldl_nil, List.append_nil]
  | cons line lines ih => rw [List.foldl_cons, ih, List.append_assoc, List.singleton_append]

/-- An agent does not get at the lines, since it is not handed the log. -/
theorem keeps_noting (table : HostTable β) (transceiver : Transceiver) (lines : List String) :
    (transceiver.hardware table.noting.circuit).Keeps fun state => state.2 = lines where
  transmit request state h := by
    -- Whatever writing comes to, the lines are handed through.
    have hsend : (table.noting.circuit.send request (table.noting.setDirection true state)).1.2
        = lines := by
      rw [Circuit.send]
      split
      · next hwrite => exact (congrArg (fun written => written.1.2) hwrite).symm.trans h
      · next hwrite => exact (congrArg (fun written => written.1.2) hwrite).symm.trans h
    exact hsend
  receive count state h := h
  tick state h := h
  wakeHost mailbox state h := h

end HostTable

/-! ## Polls -/

namespace HostBridge

variable {β : Type}

/-- A poll is a step of the agent, on the mailbox that it is given. It keeps the
    table and the times, and the log gets its lines behind the step. -/
theorem poll_step (bridge : HostBridge β) (mailbox : Mailbox) (state : β) :
    let step := Node.step bridge.hardware ⟨bridge.agent, mailbox, state⟩
    let after := bridge.poll mailbox state
    (⟨after.1.agent, after.2.1, after.2.2⟩ : Node β)
        = { step.1 with
            hardware := bridge.table.logAll (step.2.filterMap Event.logLine?) step.1.hardware } ∧
      after.1.table = bridge.table ∧ after.1.transceiver = bridge.transceiver :=
  ⟨rfl, rfl, rfl⟩

/-- The first line stands in the log before anything has happened. -/
theorem log_start (table : HostTable β) (timing : Timing) (mailbox : Mailbox)
    (state : β × List String) :
    (start table.noting timing mailbox state).2.2.2 = state.2 ++ [timing.startLine] := by
  rw [start]
  simp only [HostTable.logAll_noting]
  rfl

/-- What happens in a poll of a bridge. -/
def eventsOf (bridge : HostBridge β) (mailbox : Mailbox) (state : β) : List Event :=
  (Node.step bridge.hardware ⟨bridge.agent, mailbox, state⟩).2

/-- A poll adds a line for each of its events that is not routine. -/
theorem log_poll {table : HostTable β} {bridge : HostBridge (β × List String)}
    (h : bridge.table = table.noting) (mailbox : Mailbox) (state : β × List String) :
    (bridge.poll mailbox state).2.2.2
      = state.2 ++ (bridge.eventsOf mailbox state).filterMap Event.logLine? := by
  have hkeeps : bridge.hardware.Keeps fun after => after.2 = state.2 := by
    rw [hardware, h]
    exact table.keeps_noting bridge.transceiver state.2
  have hstep := @Node.step_keeps _ _ _ hkeeps ⟨bridge.agent, mailbox, state⟩ rfl
  rw [poll, h]
  simp only [HostTable.logAll_noting, hstep]
  rfl

/-- What the host leaves to a poll: the mailbox and its own state. -/
structure Turn (β : Type) where
  mailbox : Mailbox
  state : β

/-- Polls, one after the other, with what happens in them. The host may do
    anything in between, and only the log is left to the bridge. -/
def serve (bridge : HostBridge (β × List String)) (lines : List String) :
    List (Turn β) → List Event × List String
  | [] => ([], lines)
  | turn :: turns =>
    let events := bridge.eventsOf turn.mailbox (turn.state, lines)
    let after := bridge.poll turn.mailbox (turn.state, lines)
    let (more, last) := after.1.serve after.2.2.2 turns
    (events ++ more, last)

/-- The log has a line for each event of the polls that is not routine, in order,
    and no other. The induction is on the polls, each of which adds its own. -/
theorem log_serve {table : HostTable β} {bridge : HostBridge (β × List String)}
    (h : bridge.table = table.noting) (lines : List String) (turns : List (Turn β)) :
    (bridge.serve lines turns).2
      = lines ++ (bridge.serve lines turns).1.filterMap Event.logLine? := by
  induction turns generalizing bridge lines with
  | nil => exact (List.append_nil lines).symm
  | cons turn turns ih =>
      have htable : (bridge.poll turn.mailbox (turn.state, lines)).1.table = table.noting :=
        (bridge.poll_step turn.mailbox (turn.state, lines)).2.1.trans h
      rw [serve]
      simp only [ih htable, log_poll h, List.filterMap_append, List.append_assoc]

end HostBridge

end DoorBus

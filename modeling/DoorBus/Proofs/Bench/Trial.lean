import DoorBus.Bench.Loop
import DoorBus.Proofs.Bench.Drive
import DoorBus.Proofs.Bench.Line

/-!
# Trials on the Bench

A trial runs the bench round after round, with the clock moving on by a
millisecond each time. Between two rounds the host uses its mailbox, somebody
presses a button on the wall, and the drive is told to misbehave: to ask for an
action, to send noise, to fall silent, to answer with exceptions. The trial
keeps a record of what the agent has noted and what it has taken from the
action slot.

However the drive misbehaves, it hears every request, once and in order. A
request goes out in one piece, and the drive takes it off the line before the
agent can begin another one. Nothing that comes back matters, since what has
been begun does not depend on what will be heard.

For that the bench has to be in order before every round: nothing waits for
the drive, the direction line says listen, and the drive was there a
millisecond ago, so that it can move its door on without a fault.

## Main definitions

* `Usage`, `Incident`: What happens between two rounds.
* `Bench.new`: A bench to begin with.
* `Trial`: A bench, with a record.
* `Trial.round`, `Trial.run`: A round of a trial, and any number of them.
* `Bench.InOrder`: What holds of a bench before every round.
* `Trial.Tallies`: The drive has heard what the agent has begun.

## Theorems

* `round_bench`: A round of a trial is a round of its bench.
* `run_keeps`: What every round keeps up holds throughout.
* `poll_asks`, `service_hears`: The parts of a round on a bench in order.
* `tallies_round`: The drive hears what the agent begins.
* `run_heard`: The drive hears every request once.
-/

namespace DoorBus

/-- What is done with a bench in ordinary use, beside looking at it. -/
inductive Usage
  /-- The host asks for the action of a code. -/
  | enqueue (code : UInt16)
  /-- The host takes its action back. -/
  | cancel
  /-- The host takes the drive request. -/
  | takeRequest
  /-- A button on the wall is pressed. -/
  | press (action : Action)

/-- What happens between two rounds. -/
inductive Incident
  /-- Ordinary use. -/
  | usage (usage : Usage)
  /-- The drive asks for the action of a code. -/
  | ask (code : UInt16)
  /-- There is noise ahead of what the drive sends next. -/
  | noise (bytes : List UInt8)
  /-- The drive falls silent, or speaks again. -/
  | silence (silent : Bool)
  /-- The drive answers with an exception from now on, or stops that. -/
  | exception (code : Option UInt8)

/-! ## Benches -/

namespace Bench

/-- A bench to begin with, at any time and with any memory. The agent has the
    default settings of its kind, and the drive a closed door. -/
def new (now : Millis) (mailbox : Mailbox) : Bench :=
  let bus := Transceiver.attach Bus.circuit ({ now } : Bus)
  { node := .mainCore (.ofMode .highPerformance) mailbox bus, drive := .new bus }

def withMailbox (bench : Bench) (mailbox : Mailbox) : Bench :=
  { bench with node := { bench.node with mailbox } }

def withDrive (bench : Bench) (drive : Drive) : Bench :=
  { bench with drive }

def use (bench : Bench) : Usage → Bench
  | .enqueue code => bench.withMailbox (bench.node.mailbox.enqueue code)
  | .cancel => bench.withMailbox bench.node.mailbox.cancel.1
  | .takeRequest => bench.withMailbox bench.node.mailbox.takeDriveRequest.1
  | .press action => bench.withDrive (bench.drive.press action)

def meet (bench : Bench) : Incident → Bench
  | .usage usage => bench.use usage
  | .ask code => bench.withDrive { bench.drive with driveRequest := code }
  | .noise bytes => bench.withDrive (bench.drive.addNoise bytes)
  | .silence silent => bench.withDrive { bench.drive with silent }
  | .exception code => bench.withDrive { bench.drive with exception := code }

/-- All that the agent notes in its next step, also what its queue has no room
    for. -/
def notes (bench : Bench) : List Event :=
  (bench.node.work Bench.hardware .unbounded).2.events

end Bench

/-- The code that was taken out of the action slot, if there was one. -/
def Mailbox.taken? (before after : Mailbox) : Option UInt16 :=
  if before.pendingAction.isPending && !after.pendingAction.isPending then
    some before.pendingAction.value
  else
    none

/-! ## Trials -/

/-- A bench, with a record. -/
structure Trial where
  /-- The bench. -/
  bench : Bench
  /-- All that the agent has noted. -/
  notes : List Event := []
  /-- The codes that the agent has taken out of the action slot. -/
  taken : List UInt16 := []
  /-- The status that the drive has broadcast last. -/
  told : Option DoorStatus := none

namespace Trial

/-- A trial of a new bench. -/
def new (now : Millis) (mailbox : Mailbox) : Trial where
  bench := .new now mailbox

def meet (trial : Trial) (incident : Incident) : Trial :=
  { trial with bench := trial.bench.meet incident }

def meetAll (trial : Trial) (incidents : List Incident) : Trial :=
  incidents.foldl meet trial

/-- The agent takes its step. -/
def poll (trial : Trial) : Trial :=
  let bench := (trial.bench.poll (.new 2)).1
  { trial with
    bench
    notes := trial.notes ++ trial.bench.notes
    taken := trial.taken ++ (trial.bench.node.mailbox.taken? bench.node.mailbox).toList }

/-- The status that the drive has broadcast last, now that it has caught up.
    It remembers when it broadcast, and nothing else changes that. -/
def toldBy (trial : Trial) (bench : Bench) : Option DoorStatus :=
  if bench.drive.lastBroadcast = trial.bench.drive.lastBroadcast then trial.told
  else some bench.drive.status

/-- The drive catches up. -/
def service (trial : Trial) : Except ArithmeticFault Trial := do
  let bench ← trial.bench.service
  return { trial with bench, told := trial.toldBy bench }

/-- What happens before a round, and the round. -/
def round (trial : Trial) (incidents : List Incident) : Except ArithmeticFault Trial := do
  let trial ← (trial.meetAll incidents).poll.service
  return { trial with bench := trial.bench.advance 1 }

/-- A number of rounds. -/
def run (trial : Trial) (rounds : List (List Incident)) : Except ArithmeticFault Trial :=
  rounds.foldlM round trial

/-- A round of a trial is a round of its bench. -/
theorem round_bench (trial : Trial) (incidents : List Incident) :
    (trial.round incidents).map Trial.bench
      = ((trial.meetAll incidents).bench.round (.new 2) 1).map Prod.fst := by
  have hbench : (trial.meetAll incidents).poll.bench
      = ((trial.meetAll incidents).bench.poll (.new 2)).1 := rfl
  rw [round, service, Bench.round, hbench]
  simp only []
  cases ((trial.meetAll incidents).bench.poll (.new 2)).1.service <;> rfl

/-- A round without a fault, with what each of its parts leaves in the record. -/
theorem round_of_ok {trial : Trial} {incidents : List Incident} {bench : Bench}
    (h : (trial.meetAll incidents).poll.bench.service = .ok bench) :
    trial.round incidents = .ok { (trial.meetAll incidents).poll with
      bench := bench.advance 1
      told := (trial.meetAll incidents).poll.toldBy bench } := by
  rw [round, service, h]
  rfl

/-- What each incident keeps holds after all of them. -/
theorem meetAll_keeps (holds : Trial → Prop) {incidents : List Incident}
    (hmeet : ∀ trial incident, incident ∈ incidents → holds trial → holds (trial.meet incident))
    {trial : Trial} (h : holds trial) : holds (trial.meetAll incidents) := by
  induction incidents generalizing trial with
  | nil => exact h
  | cons incident incidents ih =>
      exact ih (fun trial other hother => hmeet trial other (List.mem_cons_of_mem _ hother))
        (hmeet trial incident List.mem_cons_self h)

theorem run_cons_of_ok {trial middle : Trial} {incidents : List Incident}
    (h : trial.round incidents = .ok middle) (rounds : List (List Incident)) :
    trial.run (incidents :: rounds) = middle.run rounds := by
  rw [run, List.foldlM_cons, h]
  rfl

/-- What every round keeps up holds throughout. -/
theorem run_keeps (holds : Trial → Prop) {rounds : List (List Incident)}
    (hround : ∀ trial incidents, incidents ∈ rounds → holds trial →
      ∃ after, trial.round incidents = .ok after ∧ holds after)
    {trial : Trial} (h : holds trial) :
    ∃ after, trial.run rounds = .ok after ∧ holds after := by
  induction rounds generalizing trial with
  | nil => exact ⟨trial, rfl, h⟩
  | cons incidents rounds ih =>
      rcases hround trial incidents List.mem_cons_self h with ⟨middle, hmiddle, hholds⟩
      rcases ih (fun trial other hother => hround trial other (List.mem_cons_of_mem _ hother))
        hholds with ⟨after, hafter, hkept⟩
      exact ⟨after, (run_cons_of_ok hmiddle rounds).trans hafter, hkept⟩

end Trial

/-! ## What holds before every round -/

/-- Code of the action that a request asks for, if it asks for any. -/
def Request.pending? (request : Request) : Option UInt16 :=
  if request.action.isPending then some request.action.value else none

/-- One request carries one code at most, and none if nothing was pending. -/
theorem Request.filterMap_pending (request : Option Request) :
    request.toList.filterMap pending? = (request.bind pending?).toList := by
  cases request with
  | none => rfl
  | some request =>
      rw [Option.toList_some, filterMap_cons_toList, List.filterMap_nil, List.append_nil,
        Option.bind_some]

theorem Drive.actionsReceived_eq (drive : Drive) :
    drive.actionsReceived = drive.requests.toList.filterMap Request.pending? := rfl

namespace Bench

/-- Nothing is on its way to the drive, and the drive was there a millisecond
    ago. -/
structure InOrder (bench : Bench) : Prop where
  reachable : Node.Reachable hardware (.ofMode .highPerformance) .never bench.node
  isOpen : bench.node.hardware.IsOpen
  isStandard : bench.drive.door.IsStandard
  lag_le : (Millis.elapsed bench.drive.lastService bench.node.hardware.now).toNat ≤ 1

variable {bench : Bench}

/-- At the start nothing has been sent, and the drive has just been there. -/
theorem inOrder_new (now : Millis) (mailbox : Mailbox) : (new now mailbox).InOrder where
  reachable := .start mailbox _
  isOpen := ⟨rfl, rfl, rfl, rfl⟩
  isStandard := Door.isStandard_new
  lag_le := by
    have hlag : (Millis.elapsed now now).toNat ≤ 1 := by
      rw [Millis.elapsed_self]
      decide
    exact hlag

/-- What the host writes into the mailbox is not on the line. -/
theorem inOrder_withMailbox (h : bench.InOrder) (mailbox : Mailbox) :
    (bench.withMailbox mailbox).InOrder where
  reachable := .other mailbox _ h.reachable
  isOpen := h.isOpen
  isStandard := h.isStandard
  lag_le := h.lag_le

theorem inOrder_withDrive (h : bench.InOrder) {drive : Drive}
    (hdoor : drive.door.IsStandard) (hservice : drive.lastService = bench.drive.lastService) :
    (bench.withDrive drive).InOrder where
  reachable := h.reachable
  isOpen := h.isOpen
  isStandard := hdoor
  lag_le := by
    have hlag := h.lag_le
    rw [← hservice] at hlag
    exact hlag

theorem inOrder_use (h : bench.InOrder) (usage : Usage) : (bench.use usage).InOrder := by
  cases usage with
  | enqueue code => exact inOrder_withMailbox h _
  | cancel => exact inOrder_withMailbox h _
  | takeRequest => exact inOrder_withMailbox h _
  | press action => exact inOrder_withDrive h (Door.isStandard_apply h.isStandard action) rfl

/-- No incident sends anything. Noise is said later, when the drive catches up. -/
theorem inOrder_meet (h : bench.InOrder) (incident : Incident) : (bench.meet incident).InOrder := by
  cases incident with
  | usage usage => exact inOrder_use h usage
  | ask code => exact inOrder_withDrive h h.isStandard rfl
  | noise bytes => exact inOrder_withDrive h h.isStandard rfl
  | silence silent => exact inOrder_withDrive h h.isStandard rfl
  | exception code => exact inOrder_withDrive h h.isStandard rfl

/-! ## The step of the agent -/

/-- The request that the agent begins in its next step. -/
def asks? (bench : Bench) : Option Request :=
  bench.node.asks? hardware

/-- What the step of the agent leaves behind: the request that it has begun,
    on its way to the drive. -/
structure Asks (bench after : Bench) : Prop where
  reachable : Node.Reachable hardware (.ofMode .highPerformance) .never after.node
  waits : Drive.Waits after.node.hardware bench.asks?
  isOpen : ({ after.node.hardware with toDrive := [] } : Bus).IsOpen
  drive_eq : after.drive = bench.drive
  lag_le : (Millis.elapsed bench.drive.lastService after.node.hardware.now).toNat ≤ 6
  begun_eq : bench.notes.filterMap Event.begun? = bench.asks?.toList
  taken_eq : bench.node.mailbox.taken? after.node.mailbox = bench.asks?.bind Request.pending?

/-- On a bus where nothing waits, the request of a step is all that waits behind
    it. -/
theorem waits_carrying {bus : Bus} (h : bus.IsOpen) (line : List UInt8) (request : Option Request) :
    Drive.Waits (({ bus with toBridge := line } : Bus).carrying request) request := by
  have hempty := h.toDrive_eq
  cases request with
  | none => exact hempty
  | some request =>
      rw [Drive.Waits, Bus.carrying]
      simp only [hempty]
      rfl

theorem isOpen_carrying {bus : Bus} (h : bus.IsOpen) (line : List UInt8)
    (request : Option Request) :
    ({ ({ bus with toBridge := line } : Bus).carrying request with
      toDrive := [] } : Bus).IsOpen := by
  cases request with
  | none => exact ⟨rfl, h.transmitting_eq, h.failWrites_eq, h.strayBytes_eq⟩
  | some request => exact ⟨rfl, rfl, h.failWrites_eq, h.strayBytes_eq⟩

theorem lag_carrying {bus : Bus} {last : Millis} (h : (Millis.elapsed last bus.now).toNat ≤ 1)
    (line : List UInt8) (request : Option Request) :
    (Millis.elapsed last (({ bus with toBridge := line } : Bus).carrying request).now).toNat
      ≤ 6 := by
  cases request with
  | none => exact Nat.le_trans h (by decide)
  | some request =>
      -- Sending adds five milliseconds to the one that may have passed.
      have hsum := Millis.toNat_elapsed_le last bus.now Bus.requestTime
      have htime : Bus.requestTime.toNat = 5 := rfl
      rw [Bus.carrying]
      simp only []
      omega

/-- A code that stays in the slot has not been taken, and one that is in it no
    more has. -/
theorem taken_of_action {before after : Mailbox} {request : Option Request}
    (h : after.action = request.elim before.action (fun _ => 0))
    (hrequest : ∀ asked ∈ request, asked.action = before.pendingAction) :
    before.taken? after = request.bind Request.pending? := by
  cases request with
  | none =>
      -- A code that was in the slot still is.
      have hsame : after.action = before.action := h
      rw [Mailbox.taken?, Mailbox.pendingAction, Mailbox.pendingAction, hsame]
      cases (ActionCode.mk before.action.toUInt16).isPending <;> rfl
  | some asked =>
      have hzero : after.action = 0 := h
      have hafter : after.pendingAction.isPending = false := by
        rw [Mailbox.pendingAction, hzero]
        rfl
      rw [Mailbox.taken?, hafter, Option.bind_some, Request.pending?, hrequest asked rfl]
      cases before.pendingAction.isPending <;> rfl

theorem poll_asks (h : bench.InOrder) : bench.Asks (bench.poll (.new 2)).1 := by
  have hrest := Node.atRest_of_reachable h.reachable
  have hworks := h.isOpen.failWrites_eq
  rcases Node.hardware_step hrest (Node.policy_of_reachable h.reachable) hworks with ⟨line, hbus⟩
  have hafter : (bench.poll (.new 2)).1.node = (bench.node.step hardware).1 := rfl
  have haction := Node.action_step hrest hworks
  -- The step has done three things to the bus: read, switched the direction, and sent.
  refine ⟨hafter ▸ .step h.reachable, ?_, ?_, rfl, ?_, Node.begun_work hrest hardware, ?_⟩
  · rw [hafter, hbus]
    exact waits_carrying h.isOpen line bench.asks?
  · rw [hafter, hbus]
    exact isOpen_carrying h.isOpen line bench.asks?
  · rw [hafter, hbus]
    exact lag_carrying h.lag_le line bench.asks?
  · exact taken_of_action haction.1 haction.2

/-! ## The drive -/

/-- A round in which the drive hears what the agent has begun. -/
structure Hears (bench after : Bench) : Prop where
  inOrder : (after.advance 1).InOrder
  requests_eq : after.drive.requests.toList = bench.drive.requests.toList ++ bench.asks?.toList
  rejected_eq : after.drive.rejected = bench.drive.rejected

/-- The drive can move its door on. -/
theorem Asks.isPunctual {asked : Bench} (h : bench.InOrder) (hasks : bench.Asks asked) :
    asked.drive.door.IsStandard ∧
      (Millis.elapsed asked.drive.lastService asked.node.hardware.now).toNat ≤ 10 := by
  rw [hasks.drive_eq]
  exact ⟨h.isStandard, Nat.le_trans hasks.lag_le (by decide)⟩

theorem service_hears {asked : Bench} (h : bench.InOrder) (hasks : bench.Asks asked) :
    ∃ after, asked.service = .ok after ∧ bench.Hears after := by
  rcases hasks.isPunctual h with ⟨hdoor, hlag⟩
  rcases Drive.service_hears hdoor hlag hasks.waits with
    ⟨drive, line, hservice, hrequests, hrejected, htime, hstandard⟩
  -- The drive was there just now, and the clock moves on by a millisecond.
  let bus : Bus := { asked.node.hardware with toDrive := [], toBridge := line }
  have hreachable := @Node.Reachable.other _ _ _ _ asked.node asked.node.mailbox (bus.advance 1)
    hasks.reachable
  have hpassed : (Millis.elapsed drive.lastService (asked.node.hardware.now + 1)).toNat ≤ 1 := by
    have hsum := Millis.toNat_elapsed_le asked.node.hardware.now asked.node.hardware.now 1
    rw [Millis.elapsed_self] at hsum
    rw [htime]
    exact hsum
  refine ⟨⟨{ asked.node with hardware := bus }, drive⟩, ?_, ⟨hreachable, ?_, hstandard, hpassed⟩,
    ?_, ?_⟩
  · rw [service, hservice]
    rfl
  · exact ⟨rfl, hasks.isOpen.transmitting_eq, hasks.isOpen.failWrites_eq,
      hasks.isOpen.strayBytes_eq⟩
  · rw [← hasks.drive_eq]
    exact hrequests
  · rw [← hasks.drive_eq]
    exact hrejected

end Bench

namespace Trial

/-- The bench is in order, and the drive has heard what the agent has begun
    and taken. -/
structure Tallies (trial : Trial) : Prop where
  inOrder : trial.bench.InOrder
  requests_eq : trial.bench.drive.requests.toList = trial.notes.filterMap Event.begun?
  taken_eq : trial.bench.drive.actionsReceived = trial.taken
  rejected_eq : trial.bench.drive.rejected = 0

theorem tallies_new (now : Millis) (mailbox : Mailbox) : (new now mailbox).Tallies where
  inOrder := Bench.inOrder_new now mailbox
  requests_eq := rfl
  taken_eq := rfl
  rejected_eq := rfl

/-- An incident is neither heard nor begun, so the books stay as they are. -/
theorem tallies_meet {trial : Trial} (h : trial.Tallies) (incident : Incident) :
    (trial.meet incident).Tallies := by
  have hsame : (trial.bench.meet incident).drive.requests = trial.bench.drive.requests ∧
      (trial.bench.meet incident).drive.rejected = trial.bench.drive.rejected := by
    cases incident with
    | usage usage => cases usage <;> exact ⟨rfl, rfl⟩
    | ask _ | noise _ | silence _ | exception _ => exact ⟨rfl, rfl⟩
  refine ⟨Bench.inOrder_meet h.inOrder incident, ?_, ?_, ?_⟩
  · rw [meet, hsame.1]
    exact h.requests_eq
  · rw [meet, Drive.actionsReceived_eq, hsame.1]
    exact h.taken_eq
  · rw [meet, hsame.2]
    exact h.rejected_eq

/-- A round adds the same request and the same code to both books. -/
theorem tallies_round {trial : Trial} (h : trial.Tallies) (incidents : List Incident) :
    ∃ after, trial.round incidents = .ok after ∧ after.Tallies := by
  have hmet : (trial.meetAll incidents).Tallies :=
    meetAll_keeps Tallies (fun _ incident _ hbefore => tallies_meet hbefore incident) h
  have hasks := Bench.poll_asks hmet.inOrder
  rcases Bench.service_hears hmet.inOrder hasks with ⟨bench, hservice, hhears⟩
  refine ⟨_, round_of_ok hservice, hhears.inOrder, ?_, ?_,
    hhears.rejected_eq.trans hmet.rejected_eq⟩
  · -- What this round begins stands behind what was begun before, on both sides.
    have hnotes : (trial.meetAll incidents).poll.notes.filterMap Event.begun?
        = (trial.meetAll incidents).notes.filterMap Event.begun?
          ++ (trial.meetAll incidents).bench.asks?.toList := by
      rw [← hasks.begun_eq, ← List.filterMap_append]
      rfl
    rw [hnotes, ← hmet.requests_eq]
    exact hhears.requests_eq
  · -- A request asks for something only if a code was taken for it.
    have htaken : (trial.meetAll incidents).poll.taken = (trial.meetAll incidents).taken
        ++ ((trial.meetAll incidents).bench.asks?.bind Request.pending?).toList := by
      rw [← hasks.taken_eq]
      rfl
    have hreceived : bench.drive.actionsReceived
        = (trial.meetAll incidents).bench.drive.actionsReceived
          ++ ((trial.meetAll incidents).bench.asks?.bind Request.pending?).toList := by
      rw [Drive.actionsReceived_eq, hhears.requests_eq, List.filterMap_append,
        ← Drive.actionsReceived_eq, Request.filterMap_pending]
    rw [htaken, ← hmet.taken_eq]
    exact hreceived

/-- The drive hears every request once. Start a bench at any time, with any
    memory, and run it for any number of rounds, with any incidents before
    each of them. That is never a fault, and afterwards:

    The drive has understood the requests that the agent has begun, in order,
    and nothing else was sent to it. The actions that it was asked for are the
    codes that the agent has taken out of the action slot, in order. And no
    byte was written while the direction line said listen. -/
theorem run_heard (now : Millis) (mailbox : Mailbox) (rounds : List (List Incident)) :
    ∃ trial, (new now mailbox).run rounds = .ok trial ∧
      trial.bench.drive.requests.toList = trial.notes.filterMap Event.begun? ∧
      trial.bench.drive.rejected = 0 ∧
      trial.bench.drive.actionsReceived = trial.taken ∧
      trial.bench.node.hardware.strayBytes = 0 := by
  rcases run_keeps Tallies (fun _ incidents _ hbefore => tallies_round hbefore incidents)
    (tallies_new now mailbox) with ⟨trial, hrun, htallies⟩
  exact ⟨trial, hrun, htallies.requests_eq, htallies.rejected_eq, htallies.taken_eq,
    htallies.inOrder.isOpen.strayBytes_eq⟩

end Trial

end DoorBus

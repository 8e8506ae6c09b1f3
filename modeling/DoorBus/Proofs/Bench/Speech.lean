import DoorBus.Proofs.Agent.Begun
import DoorBus.Proofs.Bench.Drive
import DoorBus.Proofs.Bench.Line
import DoorBus.Proofs.Bench.Quiet
import DoorBus.Proofs.Master.Silence
import DoorBus.Proofs.Message.Image

/-!
# What a Drive Says in One Go

A drive that is left alone says two things when it catches up: the answer to
the request that waits, and the status of its door if that is due. Both can be
read as a whole, and fit in one read of the agent.

So a step of the agent that begins with such bytes on the line, and with the
phase that the answer belongs to, ends with an empty line and an empty
receiver. The record has learned the answer and the status, nothing has gone
wrong, and only a new request is in flight.

## Main definitions

* `Event.IsCalm`: A note that tells of no trouble.
* `Speech`: What a drive says in one go.
* `Master.Attends`: What a master makes of it.
* `Node.Heeds`: What a step of an agent makes of it.

## Theorems

* `hearBytes_message`: A message that hides no frame is heard as a whole.
* `hear_attends`: A master that awaits a speech attends to it.
* `listen_attends`: So does an agent that finds it on its line.
* `step_heeds`: A step leaves only a new request in flight.
-/

namespace DoorBus

/-! ## Notes -/

/-- Something that a drive in good health gives no reason to note. -/
def Event.isTrouble : Event → Bool
  | timedOut _ | disconnected | responseRejected _ | statusRejected _ | frameDropped _
  | lateResponse => true
  | sent _ _ | completed _ | statusUpdated _ | identified _ | driveRequest _ | driveFault _
  | connected => false

def Event.IsCalm (event : Event) : Prop :=
  event.isTrouble = false

open Event (IsCalm)
open EventQueue (Gains gains_refl gains_trans gains_push gains_pushAll)

theorem isCalm_of_mem_answered {kind : PollKind} {link : Link} {response : Response} {event : Event}
    (h : event ∈ (Outcome.answered response).notes kind (link.after (.answered response)).2) :
    event.IsCalm := by
  simp only [Outcome.notes, List.mem_append, List.mem_singleton] at h
  rcases h with (hchange | hnews) | rfl
  · -- An answer does not take the link down.
    rcases eq_of_mem_change hchange with rfl | ⟨_, hdown⟩
    · rfl
    · exact absurd hdown (Master.succeed_ne_disconnected link)
  · rcases eq_of_mem_news hnews with ⟨_, rfl⟩ | ⟨_, rfl⟩
    · rfl
    · rfl
  · rfl

/-! ## Speeches -/

/-- What a drive says in one go: the answer to a poll, the status of its door,
    both or nothing. -/
structure Speech where
  /-- The answer. -/
  answer : Option Response
  /-- The status. -/
  status : Option DoorStatus
  fits : ∀ response ∈ answer, response.registers.length = response.kind.readQuantity.toNat
  hidesNone : ∀ response ∈ answer, (DriveMessage.answer response).frame.HidesNone
  isHarmless : ∀ said ∈ status, said.IsHarmless
  isDescribed : ∀ said ∈ status, said.IsDescribed

namespace Speech

/-- Nothing is said. -/
def silence : Speech where
  answer := none
  status := none
  fits _ h := absurd h (Option.not_mem_none _)
  hidesNone _ h := absurd h (Option.not_mem_none _)
  isHarmless _ h := absurd h (Option.not_mem_none _)
  isDescribed _ h := absurd h (Option.not_mem_none _)

def answerBytes (speech : Speech) : List UInt8 :=
  speech.answer.elim [] fun response => (DriveMessage.answer response).frame.toBytes

def statusBytes (speech : Speech) : List UInt8 :=
  speech.status.elim [] fun said => (DriveMessage.status ⟨said.toRegisters⟩).frame.toBytes

/-- The bytes on the line. The answer comes first. -/
def bytes (speech : Speech) : List UInt8 :=
  speech.answerBytes ++ speech.statusBytes

/-- The phase in which the answer is awaited. -/
def phase (speech : Speech) : Phase :=
  speech.answer.elim .idle fun response => .awaiting response.kind

/-- What the answer and the status tell about the drive. -/
def recordAnswer (speech : Speech) (record : DriveRecord) : DriveRecord :=
  speech.answer.elim record fun response => record.after (.answered response)

def recordStatus (speech : Speech) (record : DriveRecord) : DriveRecord :=
  speech.status.elim record fun said => (record.hear said).1

def record (speech : Speech) (record : DriveRecord) : DriveRecord :=
  speech.recordStatus (speech.recordAnswer record)

/-- A speech fits in one read. -/
theorem length_bytes (speech : Speech) : speech.bytes.length < Agent.chunkSize := by
  have hanswer : speech.answerBytes.length ≤ 21 := by
    unfold answerBytes
    cases speech.answer with
    | none => exact Nat.zero_le 21
    | some response =>
        have hle : response.registers.length ≤ 8 := response.registers_le
        rw [Option.elim_some, Frame.length_toBytes, Frame.encodedLength, DriveMessage.frame,
          DriveMessage.length_response_payload]
        omega
  have hstatus : speech.statusBytes.length ≤ 27 := by
    unfold statusBytes
    cases speech.status with
    | none => exact Nat.zero_le 27
    | some said => exact Nat.le_refl 27
  have hsize : Agent.chunkSize = 64 := rfl
  rw [bytes, List.length_append, hsize]
  omega

end Speech

namespace Master

/-! ## One message -/

/-- Bytes that bring nothing but a frame at their end are heard as that frame.
    The induction is on the bytes. -/
theorem hearBytes_of_verdicts {frame : Frame} (bytes : List UInt8) :
    ∀ (master : Master) (queue : EventQueue),
      master.receiver.feedAll bytes
        = ({}, List.replicate (bytes.length - 1) (.ok none) ++ [.ok (some frame)]) →
      master.hearBytes queue bytes = ({ master with receiver := {} }).onFrame frame queue := by
  induction bytes with
  | nil =>
      intro master queue h
      have hresults : [] = [Except.ok (some frame)] := congrArg Prod.snd h
      exact absurd hresults.symm (List.cons_ne_nil _ _)
  | cons byte rest ih =>
      intro master queue h
      rw [Receiver.feedAll_cons, Prod.mk.injEq] at h
      have hhear : master.hearBytes queue (byte :: rest)
          = (master.hearByte byte queue).1.hearBytes (master.hearByte byte queue).2 rest := rfl
      rw [hhear, hearByte_eq]
      cases rest with
      | nil =>
          -- The last byte brings the frame.
          have hlast : (master.receiver.feed byte).2 = .ok (some frame) := by
            have hresults := h.2
            rw [List.length_singleton, Nat.sub_self, List.replicate_zero,
              List.nil_append] at hresults
            exact (List.cons.inj hresults).1
          have hempty : (master.receiver.feed byte).1 = {} := h.1
          rw [hlast]
          simp only [fed, hempty]
          rfl
      | cons next rest =>
          have hlen : (byte :: next :: rest).length - 1 = (next :: rest).length - 1 + 1 := rfl
          rw [hlen, List.replicate_succ, List.cons_append, List.cons.injEq] at h
          rw [h.2.1]
          exact ih (master.fed byte) queue (Prod.ext h.1 h.2.2)

/-- A message that hides no frame is heard as a whole. -/
theorem hearBytes_message {master : Master} (hempty : master.receiver = {})
    {message : DriveMessage} (hnone : message.frame.HidesNone) (queue : EventQueue) :
    master.hearBytes queue message.frame.toBytes = master.onFrame message.frame queue := by
  have hfed : master.receiver.feedAll message.frame.toBytes
      = ({}, List.replicate (message.frame.toBytes.length - 1) (.ok none)
          ++ [.ok (some message.frame)]) := by
    rw [hempty, Receiver.feedAll_of_hidesNone hnone message.extent_toBytes, Receiver.verdicts,
      Frame.length_toBytes]
  have hsame : { master with receiver := {} } = master := by rw [← hempty]
  rw [hearBytes_of_verdicts _ master queue hfed, hsame]

/-- The bridge reads from the frame of an answer the answer that the drive gave. -/
theorem answer_eq {response : Response}
    (h : response.registers.length = response.kind.readQuantity.toNat) :
    response.kind.answer? (DriveMessage.answer response).frame = some (.answered response) := by
  have hincoming : Incoming.ofFrame (DriveMessage.answer response).frame
      = .ok (.response (DriveMessage.answer response).frame) := rfl
  rw [PollKind.answer?, hincoming]
  simp only [Response.ofFrame_frame response h]

/-- The bridge reads from a broadcast the status that was said, if it is one
    that a drive can describe. -/
theorem ofFrame_status {said : DoorStatus} (h : said.IsDescribed) :
    DoorStatus.ofFrame (DriveMessage.status ⟨said.toRegisters⟩).frame = .ok said := by
  rw [DoorStatus.ofFrame, Broadcast.ofFrame_frame, Except.map, Broadcast.status,
    DoorStatus.ofRegisters_toRegisters, DoorStatus.reread_of_isDescribed h]

/-- The answer ends the poll under way. -/
theorem hearBytes_answer {master : Master} (hempty : master.receiver = {}) {response : Response}
    (hphase : master.phase = .awaiting response.kind)
    (hfits : response.registers.length = response.kind.readQuantity.toNat)
    (hnone : (DriveMessage.answer response).frame.HidesNone) (queue : EventQueue) :
    (master.hearBytes queue (DriveMessage.answer response).frame.toBytes).1
        = { master with phase := .idle, record := master.record.after (.answered response) } ∧
      Gains IsCalm queue
        (master.hearBytes queue (DriveMessage.answer response).frame.toBytes).2 := by
  rw [hearBytes_message hempty hnone, onFrame_of_answer hphase (answer_eq hfits)]
  exact ⟨rfl, gains_pushAll queue fun event hevent => isCalm_of_mem_answered hevent⟩

/-- A status is taken at any time. -/
theorem hearBytes_status {master : Master} (hempty : master.receiver = {}) {said : DoorStatus}
    (hharmless : said.IsHarmless) (hdescribed : said.IsDescribed) (queue : EventQueue) :
    (master.hearBytes queue (DriveMessage.status ⟨said.toRegisters⟩).frame.toBytes).1
        = { master with record := (master.record.hear said).1 } ∧
      Gains IsCalm queue
        (master.hearBytes queue (DriveMessage.status ⟨said.toRegisters⟩).frame.toBytes).2 := by
  have hincoming : Incoming.ofFrame (DriveMessage.status ⟨said.toRegisters⟩).frame
      = .ok (.broadcast (DriveMessage.status ⟨said.toRegisters⟩).frame) := rfl
  rw [hearBytes_message hempty (hidesNone_status hharmless), onFrame, hincoming]
  simp only [onBroadcast, ofFrame_status hdescribed, true_and]
  by_cases hnew : (master.record.hear said).2 = true
  · rw [if_pos hnew]
    exact gains_push queue rfl
  · rw [if_neg hnew]
    exact gains_refl queue

/-! ## Speeches -/

/-- A master that awaits the answer in a speech, if there is one. -/
structure Awaits (master : Master) (speech : Speech) : Prop where
  receiver_eq : master.receiver = {}
  phase_eq : master.phase = speech.phase

/-- What a master makes of a speech. -/
structure Attends (before : Master) (speech : Speech) (after : Master) : Prop where
  receiver_eq : after.receiver = {}
  phase_eq : after.phase = .idle
  record_eq : after.record = speech.record before.record
  lastPoll_eq : after.lastPoll = before.lastPoll

/-- The bytes of an answer end the poll that awaits it, and are noted calmly. -/
theorem hearBytes_answerBytes {master : Master} {speech : Speech} (h : master.Awaits speech)
    (queue : EventQueue) :
    (master.hearBytes queue speech.answerBytes).1
        = { master with phase := .idle, record := speech.recordAnswer master.record } ∧
      Gains IsCalm queue (master.hearBytes queue speech.answerBytes).2 := by
  have hphase := h.phase_eq
  unfold Speech.phase at hphase
  unfold Speech.answerBytes Speech.recordAnswer
  cases hanswer : speech.answer with
  | none =>
      rw [hanswer] at hphase
      refine ⟨?_, gains_refl queue⟩
      have hsame : { master with phase := .idle } = master := by
        rw [← (show master.phase = .idle from hphase)]
      exact hsame.symm
  | some response =>
      rw [hanswer] at hphase
      exact hearBytes_answer h.receiver_eq hphase (speech.fits response hanswer)
        (speech.hidesNone response hanswer) queue

theorem hearBytes_statusBytes {master : Master} (hempty : master.receiver = {}) (speech : Speech)
    (queue : EventQueue) :
    (master.hearBytes queue speech.statusBytes).1
        = { master with record := speech.recordStatus master.record } ∧
      Gains IsCalm queue (master.hearBytes queue speech.statusBytes).2 := by
  unfold Speech.statusBytes Speech.recordStatus
  cases hstatus : speech.status with
  | none => exact ⟨rfl, gains_refl queue⟩
  | some said =>
      exact hearBytes_status hempty (speech.isHarmless said hstatus)
        (speech.isDescribed said hstatus) queue

/-- Answer and status are heard one after the other. The answer comes first, so
    the status finds no poll in flight. -/
theorem hearBytes_attends {master : Master} {speech : Speech} (h : master.Awaits speech)
    (queue : EventQueue) :
    master.Attends speech (master.hearBytes queue speech.bytes).1 ∧
      Gains IsCalm queue (master.hearBytes queue speech.bytes).2 := by
  rcases hearBytes_answerBytes h queue with ⟨hanswered, hcalm⟩
  have hempty : (master.hearBytes queue speech.answerBytes).1.receiver = {} := by
    rw [hanswered]
    exact h.receiver_eq
  rcases hearBytes_statusBytes hempty speech (master.hearBytes queue speech.answerBytes).2 with
    ⟨htold, hcalm'⟩
  rw [Speech.bytes, hearBytes_append]
  refine ⟨?_, gains_trans hcalm hcalm'⟩
  rw [htold, hanswered]
  exact ⟨h.receiver_eq, rfl, rfl, rfl⟩

theorem hear_attends {master : Master} {speech : Speech} (h : master.Awaits speech)
    (now : Millis) (queue : EventQueue) :
    master.Attends speech (master.hear now speech.bytes queue).1 ∧
      Gains IsCalm queue (master.hear now speech.bytes queue).2 := by
  have hfresh : master.IsFresh now := .inl (by rw [h.receiver_eq]; rfl)
  by_cases hempty : speech.bytes = []
  · -- Nothing is heard, and there was nothing to hear.
    have hattends := hearBytes_attends h queue
    rw [hempty] at hattends ⊢
    exact hattends
  · have hattends := @hearBytes_attends { master with lastHeard := now } speech
      ⟨h.receiver_eq, h.phase_eq⟩ queue
    rw [hear, if_neg fun hnil => hempty (List.isEmpty_iff.mp hnil), flushStale_of_fresh hfresh]
    exact ⟨⟨hattends.1.receiver_eq, hattends.1.phase_eq, hattends.1.record_eq,
      hattends.1.lastPoll_eq⟩, hattends.2⟩

/-- A look at the clock does nothing to a master that has attended. -/
theorem checkTimeouts_of_attends {before after : Master} {speech : Speech}
    (h : before.Attends speech after) (now : Millis) (queue : EventQueue) :
    after.checkTimeouts now queue = (after, queue) := by
  have hfresh : after.IsFresh now := .inl (by rw [h.receiver_eq]; rfl)
  have hoverdue : after.isOverdue now = false := by
    rw [isOverdue, h.phase_eq]
    rfl
  rw [checkTimeouts, flushStale_of_fresh hfresh]
  simp only [hoverdue]
  rfl

end Master

namespace Node

/-! ## Listening -/

/-- A node with a speech on its line, and with the phase in which it is
    awaited. -/
structure Awaits (node : Node Bus) (speech : Speech) : Prop where
  master : node.agent.master.Awaits speech
  line_eq : node.hardware.toBridge = speech.bytes

/-- A node that has read its line, which has led to some master. -/
def emptied (node : Node Bus) (master : Master) : Node Bus :=
  ({ node with hardware := { node.hardware with toBridge := [] } }).withMaster master

theorem read_speech {node : Node Bus} {speech : Speech} (h : node.Awaits speech) (reads : Nat)
    (queue : EventQueue) :
    node.read Bench.hardware (reads + 1) queue
      = (node.emptied (node.agent.master.hear node.hardware.now speech.bytes queue).1,
        (node.agent.master.hear node.hardware.now speech.bytes queue).2) := by
  have hlen := speech.length_bytes
  -- One read takes everything, and does not fill the chunk, so that it is the last one.
  have hreceive : Bench.hardware.receive Agent.chunkSize node.hardware
      = ({ node.hardware with toBridge := [] }, .ok speech.bytes) := by
    have hdrop : node.hardware.toBridge.drop Agent.chunkSize = [] := by
      rw [h.line_eq, List.drop_eq_nil_of_le (Nat.le_of_lt hlen)]
    have htake : node.hardware.toBridge.take Agent.chunkSize = speech.bytes := by
      rw [h.line_eq, List.take_of_length_le (Nat.le_of_lt hlen)]
    rw [← hdrop, ← htake]
    rfl
  rw [read, hreceive]
  simp only []
  by_cases hempty : speech.bytes.isEmpty = true
  · rw [if_pos hempty, Master.hear, if_pos hempty]
    rfl
  · rw [if_neg hempty, if_pos hlen]
    rfl

/-- An agent that finds a speech on its line attends to it. -/
theorem listen_attends {node : Node Bus} {speech : Speech} (h : node.Awaits speech)
    (queue : EventQueue) :
    ∃ master, node.agent.master.Attends speech master ∧
      (node.listen Bench.hardware queue).1 = node.emptied master ∧
      Gains IsCalm queue (node.listen Bench.hardware queue).2 := by
  rcases Master.hear_attends h.master node.hardware.now queue with ⟨hattends, hcalm⟩
  have hread := read_speech h 4 queue
  generalize node.agent.master.hear node.hardware.now speech.bytes queue = heard at *
  -- Nothing is in flight any more, and nothing is kept that could go stale.
  have hlook : (node.emptied heard.1).agent.master.checkTimeouts
      (Bench.hardware.now (Bench.hardware.tick (node.emptied heard.1).hardware)) heard.2
        = heard :=
    Master.checkTimeouts_of_attends hattends _ _
  have hlisten : node.listen Bench.hardware queue = (node.emptied heard.1, heard.2) := by
    have hreads : Agent.readsPerStep = 4 + 1 := rfl
    rw [listen, hreads, hread]
    simp only [hlook]
    rfl
  refine ⟨heard.1, hattends, ?_⟩
  rw [hlisten]
  exact ⟨rfl, hcalm⟩

/-! ## Steps -/

/-- What a step of an agent makes of a speech. -/
structure Heeds (before : Node Bus) (speech : Speech) (after : Node Bus) : Prop where
  receiver_eq : after.agent.master.receiver = {}
  phase_eq : after.agent.master.phase
    = (before.asks? Bench.hardware).elim .idle fun request => .awaiting request.kind
  record_eq : after.agent.master.record = speech.record before.agent.master.record
  line_eq : after.hardware.toBridge = []

theorem step_heeds {node : Node Bus} {speech : Speech} (hrest : node.AtRest)
    (hpolicy : node.agent.policy = .never) (hworks : node.hardware.failWrites = false)
    (h : node.Awaits speech) : node.Heeds speech (node.step Bench.hardware).1 := by
  rcases listen_attends h .empty with ⟨master, hattends, hlistened, _⟩
  rw [listen_eq_listened hrest] at hlistened
  -- The report to the host changes neither the master nor the line.
  have hmaster : (node.step Bench.hardware).1.agent.master
      = ((node.emptied master).asking (node.asks? Bench.hardware)).agent.master := by
    rw [step_asking hrest hworks, hlistened]
    rfl
  have hbus := hardware_step_asking hrest hpolicy hworks
  rw [hlistened] at hbus
  refine ⟨?_, ?_, ?_, ?_⟩
  · rw [hmaster]
    cases node.asks? Bench.hardware <;> exact hattends.receiver_eq
  · rw [hmaster]
    cases hasks : node.asks? Bench.hardware with
    | none => exact hattends.phase_eq
    | some request =>
        have hkind : request.kind = (node.emptied master).agent.master.nextKind := by
          rw [(eq_of_asks hasks).2, hlistened]
        -- The phase goes from idle to sending, and on to awaiting.
        have hphase : ((node.emptied master).asking (some request)).agent.master.phase
            = (master.phase.next (.start master.nextKind)).next .transmitted := rfl
        rw [hphase, hattends.phase_eq, Option.elim_some, hkind]
        rfl
  · rw [hmaster]
    cases node.asks? Bench.hardware <;> exact hattends.record_eq
  · rw [hbus]
    cases node.asks? Bench.hardware <;> rfl

/-- All that a step notes is calm. -/
theorem work_calm {node : Node Bus} {speech : Speech} (hrest : node.AtRest)
    (hworks : node.hardware.failWrites = false) (h : node.Awaits speech) :
    ∀ event ∈ (node.work Bench.hardware .unbounded).2.events, event.IsCalm := by
  rcases listen_attends h .unbounded with ⟨master, _, hlistened, hcalm⟩
  rw [listen_eq_listened hrest] at hlistened
  have hpoll : Gains IsCalm .unbounded (node.work Bench.hardware .unbounded).2 := by
    rw [work_eq_poll hrest]
    by_cases hdue : (node.listened Bench.hardware).agent.master.isDue
        (node.listened Bench.hardware).hardware.now = true
    -- The request that was sent is noted too, and calmly.
    · rw [poll_of_due (by rw [hlistened]; exact hworks) hdue]
      exact gains_trans hcalm (gains_push _ rfl)
    · rw [poll_of_not_due hdue]
      exact hcalm
  rcases EventQueue.events_of_gains hpoll with ⟨notes, hnotes, hall⟩
  rw [hnotes]
  exact hall

/-- A master that has not polled yet does so. -/
theorem isSome_asks_of_new {node : Node Bus} {speech : Speech} (hrest : node.AtRest)
    (h : node.Awaits speech) (hnew : node.agent.master.lastPoll = none) :
    (node.asks? Bench.hardware).isSome = true := by
  rcases listen_attends h .empty with ⟨master, hattends, hlistened, _⟩
  rw [listen_eq_listened hrest] at hlistened
  have hdue : (node.emptied master).agent.master.isDue
      (Bench.hardware.now (node.emptied master).hardware) = true := by
    have hlast : master.lastPoll = none := hattends.lastPoll_eq.trans hnew
    have hmaster : (node.emptied master).agent.master = master := rfl
    rw [hmaster, Master.isDue, hattends.phase_eq, hlast]
    rfl
  rw [asks?, hlistened, if_pos hdue]
  rfl

end Node

end DoorBus

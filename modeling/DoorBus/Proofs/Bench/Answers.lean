import DoorBus.Proofs.Bench.Drive
import DoorBus.Proofs.Bench.Line
import DoorBus.Proofs.Master.Course
import DoorBus.Proofs.Message.Image

/-!
# Requests and Answers

The bridge and the drive of the bench each have their own half of the messages: the
one writes requests and reads answers, the other reads requests and writes answers.
Here the two halves are put together, over all bytes that may reach the drive and all
states that it may be in.

What is not a request leaves the drive as it was, but for the count of what it has
not understood. A request is taken down before anything else, and then one of three
things becomes of it. A silent drive leaves it at that. A drive with an exception
answers with it, and does nothing else. Any other drive acts on the code and answers,
and the reader of answers finds its two counters and what the kind of poll has asked
for.

## Main definitions

* `Drive.Answers`: What becomes of a drive that acts on a request, and its answer.

## Theorems

* `Request.ofBytes_iff`: Only what a request encodes to is read as one.
* `handle_of_other`: What is not a request.
* `handle_of_exception`, `handle_of_willing`: The two sorts of answers.
* `answers_exact`: Requests and answers, in every case.
-/

namespace DoorBus

-- Either step of the reading may fail, for a reason that is not asked for here.
theorem Request.ofBytes_eq_some {bytes : List UInt8} {request : Request} :
    ofBytes? bytes = some request ↔
      ∃ frame, Frame.decode bytes = .ok frame ∧ ofFrame frame = .ok request := by
  rw [ofBytes?]
  cases Frame.decode bytes with
  | error error => simp only [reduceCtorEq, false_and, exists_false]
  | ok frame =>
      simp only [Except.ok.injEq, exists_eq_left']
      cases ofFrame frame <;> simp only [Except.toOption, reduceCtorEq, Option.some.injEq,
        Except.ok.injEq]

/-- Only the bytes that a request encodes to are read as it. -/
theorem Request.ofBytes_iff {bytes : List UInt8} {request : Request} :
    ofBytes? bytes = some request ↔ bytes = request.bytes := by
  constructor
  · intro h
    rcases ofBytes_eq_some.mp h with ⟨frame, hdecode, hread⟩
    rw [ofFrame_iff, toFrame_eq_ok, Except.ok.injEq] at hread
    rw [← Frame.toBytes_of_decode hdecode, ← hread]
    rfl
  · rintro rfl
    exact ofBytes_bytes request

namespace ActionCode

theorem action_of_code {code : ActionCode} {action : Action} (h : code.value = action.code) :
    code.action? = some action := by
  rw [action?, h, Action.ofCode?_code]

theorem action_of_no_code {code : ActionCode} (h : ∀ action : Action, code.value ≠ action.code) :
    code.action? = Option.none := by
  rw [action?, Action.ofCode?, List.find?_eq_none]
  intro action _
  rw [decide_eq_true_eq]
  exact fun hcode => h action hcode.symm

end ActionCode

namespace Drive

variable {drive : Drive} {request : Request}

/-! ## Acting on a request -/

/-- A known code is counted twice, as a command and as a turn. -/
theorem obey_of_known {code : ActionCode} {action : Action} (h : code.action? = some action) :
    drive.obey code = { drive with
      door := drive.door.apply action
      commandCounter := drive.commandCounter + 1
      syncCounter := drive.syncCounter + 1 } := by
  rw [obey, h]

/-- A code without a meaning is only counted as a turn. -/
theorem obey_of_unknown {code : ActionCode} (h : code.action? = none) :
    drive.obey code = { drive with syncCounter := drive.syncCounter + 1 } := by
  rw [obey, h]

/-- What becomes of a drive that acts on a request, and what it answers. It counts the
    answer, and the action if the code names one, which is then what its door is asked
    for. What it asks for itself goes with the answer to a command poll only. -/
structure Answers (before : Drive) (request : Request) (after : Drive) (response : Response) :
    Prop where
  length_eq : response.registers.length = request.kind.readQuantity.toNat
  syncCounter_eq : response.syncCounter = before.syncCounter + 1
  of_known : ∀ action : Action, request.action.value = action.code →
    response.commandEcho = before.commandCounter + 1 ∧ after.door = before.door.apply action
  of_unknown : (∀ action : Action, request.action.value ≠ action.code) →
    response.commandEcho = before.commandCounter ∧ after.door = before.door
  of_busScan : request.kind = .busScan →
    response.identification = identification ∧ response.driveRequest? = none ∧
      after.driveRequest = before.driveRequest
  of_commandPoll : request.kind = .commandPoll →
    response.driveRequest?
        = (if before.driveRequest = 0 then none else some before.driveRequest) ∧
      after.driveRequest = 0
  after_eq : after = { before with
    requests := before.requests.push request
    door := after.door
    syncCounter := response.syncCounter
    commandCounter := response.commandEcho
    driveRequest := after.driveRequest }

-- What the code has done to door and counter is left open, so that known and unknown
-- codes need not be followed through the answer one by one.
theorem answers_of_acted {door : Door} {count : UInt8}
    (hknown : ∀ action : Action, request.action.value = action.code →
      count = drive.commandCounter + 1 ∧ door = drive.door.apply action)
    (hunknown : (∀ action : Action, request.action.value ≠ action.code) →
      count = drive.commandCounter ∧ door = drive.door) :
    let acted := { drive.noted request with
      door, commandCounter := count, syncCounter := drive.syncCounter + 1 }
    drive.Answers request (acted.passOn request.kind) (acted.respond request.kind) := by
  intro acted
  have hsync : (acted.respond request.kind).syncCounter = drive.syncCounter + 1 :=
    Word.high_join _ _
  have hecho : (acted.respond request.kind).commandEcho = count := Word.high_join _ _
  have hdoor : (acted.passOn request.kind).door = door := by cases request.kind <;> rfl
  refine ⟨length_respond _ _, hsync, ?_, ?_, ?_, ?_, ?_⟩
  · rw [hecho, hdoor]
    exact hknown
  · rw [hecho, hdoor]
    exact hunknown
  · intro hkind
    rw [hkind]
    exact ⟨rfl, rfl, rfl⟩
  · intro hkind
    have hthird : (acted.respond .commandPoll).driveRequest?
        = (some drive.driveRequest).filter (· != 0) := rfl
    rw [hkind, hthird, Option.filter_some]
    refine ⟨?_, rfl⟩
    by_cases hzero : drive.driveRequest = 0
    · rw [hzero]
      rfl
    · rw [if_neg hzero, if_pos (bne_iff_ne.mpr hzero)]
  · rw [hsync, hecho, hdoor]
    cases request.kind <;> rfl

/-- A drive that acts on a request answers it. Known and unknown codes meet in
    the lemma above. -/
theorem answers_respond (drive : Drive) (request : Request) :
    let obeyed := (drive.noted request).obey request.action
    drive.Answers request (obeyed.passOn request.kind) (obeyed.respond request.kind) := by
  intro obeyed
  by_cases hknown : ∃ action : Action, request.action.value = action.code
  · rcases hknown with ⟨action, hcode⟩
    have haction := ActionCode.action_of_code hcode
    have hobeyed : obeyed = _ := obey_of_known haction
    rw [hobeyed]
    refine answers_of_acted (fun other hother => ⟨rfl, ?_⟩) fun hno => absurd hcode (hno action)
    -- No two actions have the same code.
    have hsame := Option.some.inj (haction.symm.trans (ActionCode.action_of_code hother))
    rw [← hsame]
    rfl
  · rw [not_exists] at hknown
    have hobeyed : obeyed = _ := obey_of_unknown (ActionCode.action_of_no_code hknown)
    rw [hobeyed]
    exact answers_of_acted (fun action hcode => absurd hcode (hknown action)) fun _ => ⟨rfl, rfl⟩

/-! ## What comes over the wire -/

/-- Bytes that are no request are counted, and not kept. -/
theorem handle_of_other {bytes : List UInt8} (h : ∀ request : Request, bytes ≠ request.bytes) :
    drive.handle bytes = ({ drive with rejected := drive.rejected + 1 }, none) := by
  have hother : request? bytes = none := by
    cases hrequest : request? bytes with
    | none => rfl
    | some request => exact absurd (Request.ofBytes_iff.mp hrequest) (h request)
  rw [handle, hother]

theorem handle_of_silent (h : drive.silent = true) :
    drive.handle request.bytes = (drive.noted request, none) := by
  rw [handle_bytes, if_pos h]

theorem decode_message (message : DriveMessage) :
    Frame.decode message.frame.toBytes = .ok message.frame :=
  Frame.decode_toBytes _ (by cases message <;> exact List.cons_ne_nil _ _)

/-- The exception is what the bridge reads in the reply, whatever the drive was
    told to do. -/
theorem handle_of_exception {code : UInt8} (hsilent : drive.silent = false)
    (hexception : drive.exception = some code) :
    ∃ reply frame, drive.handle request.bytes = (drive.noted request, some reply) ∧
      Frame.decode reply = .ok frame ∧ Incoming.ofFrame frame = .ok (.exception code) := by
  have hreply : exceptionBytes code = some (DriveMessage.exception code).frame.toBytes :=
    encode_message (.exception code)
  refine ⟨_, _, ?_, decode_message (.exception code), rfl⟩
  rw [handle_bytes, hsilent, if_neg Bool.false_ne_true, hexception, ← hreply]

/-- The answer is one to this kind of poll, as the bridge reads it. -/
theorem handle_of_willing (hsilent : drive.silent = false) (hexception : drive.exception = none) :
    ∃ after reply frame response, drive.handle request.bytes = (after, some reply) ∧
      Frame.decode reply = .ok frame ∧ Incoming.ofFrame frame = .ok (.response frame) ∧
      Response.ofFrame frame request.kind = .ok response ∧
      drive.Answers request after response := by
  have hanswers := answers_respond drive request
  let obeyed := (drive.noted request).obey request.action
  let message := DriveMessage.answer (obeyed.respond request.kind)
  refine ⟨obeyed.passOn request.kind, message.frame.toBytes, message.frame, _, ?_,
    decode_message message, rfl, Response.ofFrame_frame _ hanswers.length_eq, hanswers⟩
  rw [handle_bytes, hsilent, if_neg Bool.false_ne_true, hexception]

/-! ## Both halves -/

/-- Requests and answers between bridge and drive, in every case. Bytes that no request
    encodes to are counted by the drive, and nothing else becomes of them. What a
    request encodes to is taken down. A silent drive leaves it at that. A drive with an
    exception answers with it, as the bridge sorts the answer, and leaves it at that.
    Any other drive gives an answer that the bridge reads as one to this kind of poll.
    And when it is time for a poll, what the bridge hands out is what the request of
    the next kind with the code from the slot encodes to, so that this is the request
    that any drive takes down. -/
theorem answers_exact :
    (∀ (drive : Drive) (bytes : List UInt8),
      (∀ request : Request, request.toFrame.bind Frame.encode ≠ .ok bytes) →
        drive.handle bytes = ({ drive with rejected := drive.rejected + 1 }, none)) ∧
    (∀ (drive : Drive) (bytes : List UInt8) (request : Request),
      request.toFrame.bind Frame.encode = .ok bytes →
        let noted := { drive with requests := drive.requests.push request }
        (drive.silent = true → drive.handle bytes = (noted, none)) ∧
        (∀ code, drive.silent = false → drive.exception = some code →
          ∃ reply frame, drive.handle bytes = (noted, some reply) ∧
            Frame.decode reply = .ok frame ∧ Incoming.ofFrame frame = .ok (.exception code)) ∧
        (drive.silent = false → drive.exception = none →
          ∃ after reply frame response, drive.handle bytes = (after, some reply) ∧
            Frame.decode reply = .ok frame ∧ Incoming.ofFrame frame = .ok (.response frame) ∧
            Response.ofFrame frame request.kind = .ok response ∧
            drive.Answers request after response)) ∧
    (∀ {σ : Type} (master : Master) (now : Millis) (take : σ → σ × ActionCode) (slot : σ)
      (queue : EventQueue), master.isDue now = true →
        let begun := master.beginIfDue now take slot queue
        let request : Request := ⟨master.nextKind, (take slot).2⟩
        ∃ bytes, begun.request = .ok (some bytes) ∧ begun.source = (take slot).1 ∧
          request.toFrame.bind Frame.encode = .ok bytes ∧
          ∀ drive : Drive, (drive.handle bytes).1.requests = drive.requests.push request ∧
            (drive.handle bytes).1.rejected = drive.rejected) := by
  refine ⟨?_, ?_, ?_⟩
  · intro drive bytes hother
    refine handle_of_other fun request hbytes => hother request ?_
    rw [hbytes, request.encode_toFrame]
  · intro drive bytes request hencode noted
    rw [request.encode_toFrame, Except.ok.injEq] at hencode
    subst hencode
    exact ⟨handle_of_silent, fun code => handle_of_exception, handle_of_willing⟩
  · intro σ master now take slot queue hdue begun request
    have hbegun : begun = _ := Master.beginIfDue_of_due hdue take slot queue
    refine ⟨request.bytes, by rw [hbegun], by rw [hbegun], request.encode_toFrame, ?_⟩
    -- The request in the books is the one that stands at their end.
    intro drive
    have hhears := handle_hears drive request
    refine ⟨?_, hhears.rejected_eq⟩
    rw [← Array.toList_inj, hhears.requests_eq, Array.toList_push]

end Drive

end DoorBus

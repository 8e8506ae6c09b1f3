import DoorBus.Bench.Drive
import DoorBus.Proofs.Bench.Door
import DoorBus.Proofs.Wire.Delivery
import DoorBus.Proofs.Wire.Request

/-!
# The Drive Catches Up

What the drive does with a request, and with the bus when it catches up.

Encoding never fails here, so an answer is a message with its bytes, and the
status broadcast is one too. What the drive was asked goes into its list of
requests before anything else is looked at. Silence and exceptions change what
is answered, not what was heard. So one relation, `Drive.Hears`, says what a
part of catching up adds to that list, and that it keeps what the next part
relies on.

## Main definitions

* `Door.IsStandard`: The door of a drive that has not been tampered with.
* `Drive.noted`: A drive that has taken down a request.
* `Drive.Hears`: A part of catching up that takes down some requests.
* `Drive.Waits`: The bytes that wait for the drive are those of a request, or
  there are none.

## Theorems

* `handle_bytes`: What a request leads to.
* `broadcastBytes_eq`: What is broadcast.
* `answer_hears`, `broadcast_hears`: The parts of catching up.
* `service_eq`: Catching up is not a fault, and is made of its parts.
* `service_hears`: The drive takes down the request that waits.
-/

namespace DoorBus

/-! ## The door -/

/-- A door at the standard speed, asked for usual places and looked at in
    time. -/
structure Door.IsStandard (door : Door) : Prop where
  isPunctual : door.IsPunctual
  isUsual : door.IsUsual
  unitTime_eq : door.unitTime = Drive.standardUnitTime

namespace Door

theorem isStandard_new : (Door.new Drive.standardUnitTime).IsStandard where
  isPunctual := ⟨by decide, by decide⟩
  isUsual := ⟨by decide, .inl rfl⟩
  unitTime_eq := rfl

/-- A button may change where the door is asked to go, and never how fast it
    goes there. -/
theorem isStandard_apply {door : Door} (h : door.IsStandard) (action : Action) :
    (door.apply action).IsStandard where
  isPunctual := isPunctual_apply h.isPunctual action
  isUsual := isUsual_apply h.isUsual action
  unitTime_eq := by
    rw [← h.unitTime_eq]
    cases action <;> rfl

/-- A drive that is looked after every ten milliseconds has such a door
    throughout, and no addition of times is a fault. -/
theorem isStandard_advance {door : Door} {elapsed : Millis} (h : door.IsStandard)
    (helapsed : elapsed.toNat ≤ 10) :
    ∃ after, door.advance elapsed = .ok after ∧ after.IsStandard := by
  have hshort : elapsed.toNat ≤ door.unitTime.toNat := by
    rw [h.unitTime_eq]
    exact helapsed
  rcases advance_of_short h.isPunctual hshort with
    ⟨after, hadvance, hpunctual, hunit, htarget, hnears⟩
  exact ⟨after, hadvance, hpunctual, isUsual_advance h.isUsual htarget hnears,
    hunit.trans h.unitTime_eq⟩

end Door

namespace Drive

/-! ## Messages -/

/-- A drive can encode all that it says, so no answer is lost for want of room
    in a frame. -/
theorem encode_message (message : DriveMessage) :
    (message.toFrame.bind Frame.encode).toOption = some message.frame.toBytes := by
  rw [DriveMessage.toFrame_eq_ok, Except.bind, Frame.encode_eq_ok]
  rfl

/-- The status of the door is broadcast. -/
theorem broadcastBytes_eq (drive : Drive) :
    drive.broadcastBytes = (DriveMessage.status ⟨drive.status.toRegisters⟩).frame.toBytes := by
  have hencode := encode_message (.status ⟨drive.status.toRegisters⟩)
  rw [DriveMessage.toFrame] at hencode
  rw [broadcastBytes, hencode]
  rfl

/-- An answer has as many registers as its kind of poll asks for. -/
theorem length_respond (drive : Drive) (kind : PollKind) :
    (drive.respond kind).registers.length = kind.readQuantity.toNat := by
  cases kind <;> rfl

/-! ## Requests -/

/-- A drive that has taken down a request. -/
def noted (drive : Drive) (request : Request) : Drive :=
  { drive with requests := drive.requests.push request }

/-- What a request leads to. It is taken down, whatever becomes of the
    answer. -/
theorem handle_bytes (drive : Drive) (request : Request) :
    drive.handle request.bytes =
      if drive.silent then (drive.noted request, none)
      else match drive.exception with
        | some code => (drive.noted request, exceptionBytes code)
        | none =>
          let obeyed := (drive.noted request).obey request.action
          (obeyed.passOn request.kind,
            some (DriveMessage.answer (obeyed.respond request.kind)).frame.toBytes) := by
  have hrequest : request? request.bytes = some request := Request.ofBytes_bytes request
  have hencode := encode_message
    (.answer (((drive.noted request).obey request.action).respond request.kind))
  rw [DriveMessage.toFrame] at hencode
  rw [handle, hrequest]
  simp only []
  by_cases hsilent : drive.silent = true
  · rw [if_pos hsilent, if_pos hsilent]
    rfl
  · rw [if_neg hsilent, if_neg hsilent, ← hencode]
    rfl

/-- The bytes that wait for the drive are those of a request, or there are
    none. -/
def Waits (bus : Bus) (request : Option Request) : Prop :=
  bus.toDrive = (request.map Request.bytes).getD []

/-- A part of catching up takes down some requests, and keeps what the next
    part relies on. -/
structure Hears (before : Drive) (requests : List Request) (after : Drive) : Prop where
  requests_eq : after.requests.toList = before.requests.toList ++ requests
  rejected_eq : after.rejected = before.rejected
  lastService_eq : after.lastService = before.lastService
  isStandard : before.door.IsStandard → after.door.IsStandard

/-- What leaves these four alone takes nothing down and breaks nothing. -/
theorem hears_of_same {before after : Drive} (hrequests : after.requests = before.requests)
    (hrejected : after.rejected = before.rejected)
    (hservice : after.lastService = before.lastService) (hdoor : after.door = before.door) :
    before.Hears [] after where
  requests_eq := by rw [hrequests, List.append_nil]
  rejected_eq := hrejected
  lastService_eq := hservice
  isStandard h := hdoor ▸ h

/-- The parts of catching up are put together by this. -/
theorem hears_trans {before middle after : Drive} {xs ys : List Request}
    (h : before.Hears xs middle) (h' : middle.Hears ys after) : before.Hears (xs ++ ys) after where
  requests_eq := by rw [h'.requests_eq, h.requests_eq, List.append_assoc]
  rejected_eq := h'.rejected_eq.trans h.rejected_eq
  lastService_eq := h'.lastService_eq.trans h.lastService_eq
  isStandard hdoor := h'.isStandard (h.isStandard hdoor)

theorem noted_hears (drive : Drive) (request : Request) :
    drive.Hears [request] (drive.noted request) where
  requests_eq := Array.toList_push
  rejected_eq := rfl
  lastService_eq := rfl
  isStandard h := h

/-- A code without a meaning is counted and moves nothing. A known one is a
    button pressed. -/
theorem obey_hears (drive : Drive) (action : ActionCode) : drive.Hears [] (drive.obey action) := by
  unfold obey
  cases action.action? with
  | none => exact hears_of_same rfl rfl rfl rfl
  | some known =>
      exact ⟨(List.append_nil _).symm, rfl, rfl, fun h => Door.isStandard_apply h known⟩

theorem passOn_hears (drive : Drive) (kind : PollKind) : drive.Hears [] (drive.passOn kind) := by
  cases kind <;> exact hears_of_same rfl rfl rfl rfl

/-- A request that is handled is taken down, in each of the three moods of a
    drive. -/
theorem handle_hears (drive : Drive) (request : Request) :
    drive.Hears [request] (drive.handle request.bytes).1 := by
  have hnoted := noted_hears drive request
  rw [handle_bytes]
  by_cases hsilent : drive.silent = true
  · rw [if_pos hsilent]
    exact hnoted
  · rw [if_neg hsilent]
    cases drive.exception with
    | some code => exact hnoted
    | none =>
        exact hears_trans hnoted (hears_trans (obey_hears _ request.action)
          (passOn_hears _ request.kind))

theorem send_hears (drive : Drive) (bus : Bus) (bytes : List UInt8) :
    drive.Hears [] (drive.send bus bytes).1 :=
  hears_of_same rfl rfl rfl rfl

/-! ## Catching up -/

theorem answer_of_none {drive : Drive} {bus : Bus} (h : Waits bus none) :
    drive.answer bus = (drive, bus) := by
  have hempty : bus.toDrive = [] := h
  have hbus : bus.take = (bus, []) := by rw [Bus.take, ← hempty]
  rw [answer, hbus]
  rfl

/-- All that waits is taken off the bus before the answer goes out, if one does. -/
theorem answer_of_some {drive : Drive} {bus : Bus} {request : Request}
    (h : Waits bus (some request)) {after : Drive} {reply : Option (List UInt8)}
    (hhandle : drive.handle request.bytes = (after, reply)) :
    drive.answer bus = reply.elim (after, { bus with toDrive := [] })
      (after.send { bus with toDrive := [] }) := by
  have hbytes : bus.toDrive = request.bytes := h
  have hwritten : ¬request.bytes.isEmpty = true := by
    rw [List.isEmpty_iff]
    exact List.cons_ne_nil _ _
  rw [answer, Bus.take, hbytes]
  simp only [if_neg hwritten, hhandle]
  -- A silent drive takes the request off the bus as well.
  cases reply <;> rfl

/-- The drive hears what waits. On the bus nothing waits any more, and there may
    be more for the bridge. -/
theorem answer_hears {bus : Bus} {request : Option Request} (h : Waits bus request)
    (drive : Drive) :
    drive.Hears request.toList (drive.answer bus).1 ∧
      ∃ line, (drive.answer bus).2 = { bus with toDrive := [], toBridge := line } := by
  cases request with
  | none =>
      have hempty : bus.toDrive = [] := h
      rw [answer_of_none h]
      exact ⟨hears_of_same rfl rfl rfl rfl, bus.toBridge, by rw [← hempty]⟩
  | some request =>
      have hhears := handle_hears drive request
      rw [answer_of_some h (Prod.eta (drive.handle request.bytes)).symm]
      cases (drive.handle request.bytes).2 with
      | none => exact ⟨hhears, bus.toBridge, rfl⟩
      | some reply =>
          have hsent := send_hears (drive.handle request.bytes).1 { bus with toDrive := [] } reply
          exact ⟨hears_trans hhears hsent, _, rfl⟩

/-- A broadcast only adds to what the bridge has to read. -/
theorem broadcast_hears (drive : Drive) (bus : Bus) :
    drive.Hears [] (drive.broadcast bus).1 ∧
      ∃ line, (drive.broadcast bus).2 = { bus with toBridge := line } := by
  rw [broadcast]
  by_cases hdue : (drive.isBroadcastDue bus.now && !drive.silent) = true
  · rw [if_pos hdue]
    exact ⟨hears_of_same rfl rfl rfl rfl, _, rfl⟩
  · rw [if_neg hdue]
    exact ⟨hears_of_same rfl rfl rfl rfl, bus.toBridge, rfl⟩

/-- Catching up is a fault only if moving the door is one. -/
theorem service_of_advance {drive : Drive} {bus : Bus} {door : Door}
    (h : drive.door.advance (Millis.elapsed drive.lastService bus.now) = .ok door) :
    drive.service bus = .ok
      (({ drive with door, lastService := bus.now }.answer bus).1.broadcast
        ({ drive with door, lastService := bus.now }.answer bus).2) := by
  rw [service, h]
  rfl

/-- A drive that looks at its door in time catches up without a fault. -/
theorem service_eq {drive : Drive} {bus : Bus} (hdoor : drive.door.IsStandard)
    (helapsed : (Millis.elapsed drive.lastService bus.now).toNat ≤ 10) :
    ∃ door : Door, door.IsStandard ∧ drive.service bus = .ok
      (({ drive with door, lastService := bus.now }.answer bus).1.broadcast
        ({ drive with door, lastService := bus.now }.answer bus).2) := by
  rcases Door.isStandard_advance hdoor helapsed with ⟨door, hadvance, hstandard⟩
  exact ⟨door, hstandard, service_of_advance hadvance⟩

/-- Catching up takes down the request that waits, and leaves the bus as it is
    but for what waits on it. -/
theorem service_hears {drive : Drive} {bus : Bus} {request : Option Request}
    (hdoor : drive.door.IsStandard)
    (helapsed : (Millis.elapsed drive.lastService bus.now).toNat ≤ 10)
    (h : Waits bus request) :
    ∃ after line, drive.service bus = .ok (after, { bus with toDrive := [], toBridge := line }) ∧
      after.requests.toList = drive.requests.toList ++ request.toList ∧
      after.rejected = drive.rejected ∧ after.lastService = bus.now ∧
      after.door.IsStandard := by
  rcases service_eq hdoor helapsed with ⟨door, hstandard, hservice⟩
  rcases answer_hears h { drive with door, lastService := bus.now } with ⟨hanswer, _, hbus⟩
  rcases broadcast_hears ({ drive with door, lastService := bus.now }.answer bus).1
    ({ drive with door, lastService := bus.now }.answer bus).2 with ⟨hbroadcast, line, hline⟩
  have hboth := hears_trans hanswer hbroadcast
  rw [List.append_nil] at hboth
  refine ⟨_, line, ?_, hboth.requests_eq, hboth.rejected_eq, hboth.lastService_eq,
    hboth.isStandard hstandard⟩
  -- On the bus the answer and the broadcast only add to the line.
  rw [hservice, ← Prod.eta ((Drive.answer _ bus).1.broadcast _), hline, hbus]

end Drive

end DoorBus

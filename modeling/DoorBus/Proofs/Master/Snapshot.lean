import DoorBus.Proofs.Door.Status
import DoorBus.Proofs.Master.Watch

/-!
# The Snapshot Is the Fold of the History

What a host sees of the drive is put together from a status, a mark of a fault
and the link, which are all written in different places. Over a whole run they
come to something simple. The status is the last one that was heard. It is an
error exactly if the last poll that was answered at all was answered by an
exception. The identification is what the last bus scan brought.

Everything else leaves them alone, and that is most of what can happen: polls
that are begun, sent or not sent, answers that do not come, do not fit or come
late, broadcasts that cannot be read, bytes that are given up. A call that
brings none of the above is `IsQuiet`.

The course of a run says that the record follows the history. So there is no
induction over runs here, only a reading of `DriveRecord.following`.

## Main definitions

* `Master.IsQuiet`: A call that brings neither a status nor a success.
* `Master.SameView`: Two masters that agree on the drive, but for the link.

## Theorems

* `toList_words`: The words of identification are the last registers.
* `isDescribed_of_mem_statuses`: Every status that was heard is one that a drive
  can describe.
* `isSuccess_follow`, `isSuccess_of_isQuiet`: Where no success can come from.
* `following_of_quiet`: A history that tells nothing.
* `record_of_watched`, `status_of_watched`: The record of a run, and the status.
* `snapshot_of_watched`: The snapshot of a run.
* `snapshot_of_watched_fault`: A run that ends with a fault.
-/

namespace DoorBus

open Master (Call)

/-! ## Statuses and scans -/

/-- Every status that was heard is one that a drive can describe. -/
theorem isDescribed_of_mem_statuses {occurrences : List Occurrence} {status : DoorStatus}
    (h : status ∈ statuses occurrences) : status.IsDescribed := by
  rcases List.mem_filterMap.mp h with ⟨occurrence, _, hstatus⟩
  cases occurrence with
  | heard frame =>
      rw [Occurrence.status?, Frame.status?] at hstatus
      cases hincoming : Incoming.ofFrame frame with
      | error error => simp only [hincoming, reduceCtorEq] at hstatus
      | ok incoming =>
          rw [hincoming] at hstatus
          cases incoming with
          | response answer => simp only [reduceCtorEq] at hstatus
          | exception code => simp only [reduceCtorEq] at hstatus
          | broadcast inner =>
              simp only [DoorStatus.ofFrame] at hstatus
              cases hbroadcast : Broadcast.ofFrame inner with
              | error error =>
                  rw [hbroadcast] at hstatus
                  exact absurd hstatus (by simp only [Except.map, Except.toOption, reduceCtorEq,
                    not_false_eq_true])
              | ok broadcast =>
                  rw [hbroadcast] at hstatus
                  exact ⟨_, _, _, _, (Option.some.inj hstatus).symm⟩
  | begun kind action => simp only [Occurrence.status?, reduceCtorEq] at hstatus
  | sent now => simp only [Occurrence.status?, reduceCtorEq] at hstatus
  | unsent => simp only [Occurrence.status?, reduceCtorEq] at hstatus
  | looked now => simp only [Occurrence.status?, reduceCtorEq] at hstatus

/-- The last status heard is no error, and neither is the one before any. -/
theorem state_getLast_statuses (occurrences : List Occurrence) :
    ((statuses occurrences).getLast?.getD .unknown).state ≠ .error := by
  cases hlast : (statuses occurrences).getLast? with
  | none => exact DoorState.noConfusion
  | some status =>
      exact DoorStatus.state_of_isDescribed
        (isDescribed_of_mem_statuses (List.mem_of_getLast? hlast))

/-- The words of identification are the last registers of a whole answer. -/
theorem Response.toList_words : ∀ {response : Response}, response.kind = .busScan →
    response.registers.length = PollKind.busScan.readQuantity.toNat →
    response.words.toList
      = response.registers.drop (response.registers.length - identificationCount)
  | ⟨.busScan, [_, _, _, _, _], _⟩, _, _ => rfl

/-- Only an answer to a bus scan leaves a scan, and it is that answer. -/
theorem Outcome.eq_of_scan {outcome : Outcome} {scan : Response} (h : outcome.scan? = some scan) :
    outcome = .answered scan ∧ scan.kind = .busScan := by
  cases outcome with
  | answered response =>
      rw [scan?] at h
      cases hkind : response.kind with
      | busScan =>
          rw [hkind, Option.some.injEq] at h
          exact ⟨by rw [h], by rw [← h, hkind]⟩
      | commandPoll =>
          simp only [hkind, reduceCtorEq] at h
  | excepted code => simp only [scan?, reduceCtorEq] at h
  | rejected fault => simp only [scan?, reduceCtorEq] at h
  | overdue => simp only [scan?, reduceCtorEq] at h
  | unsent => simp only [scan?, reduceCtorEq] at h

/-- The fault in a snapshot is the last success being an exception. -/
theorem Outcome.any_isException_iff {last : Option Outcome} :
    last.any isException = true ↔ ∃ code, last = some (.excepted code) := by
  constructor
  · intro h
    rcases last with _ | outcome
    · exact absurd h Bool.false_ne_true
    cases outcome with
    | excepted code => exact ⟨code, rfl⟩
    | answered response => exact absurd h Bool.false_ne_true
    | rejected fault => exact absurd h Bool.false_ne_true
    | overdue => exact absurd h Bool.false_ne_true
    | unsent => exact absurd h Bool.false_ne_true
  · rintro ⟨code, rfl⟩
    rfl

/-- The last bus scan that was answered has left its last registers. -/
theorem toList_words_lastScan {timeout : Millis} {flight : Flight} {occurrences : List Occurrence}
    {scan : Response}
    (h : Outcome.lastScan? (outcomes (flight.follow timeout occurrences).2) = some scan) :
    scan.words.toList = scan.registers.drop (scan.registers.length - identificationCount) := by
  rcases List.mem_filterMap.mp (List.mem_of_getLast? h) with ⟨outcome, houtcome, hscan⟩
  rcases Outcome.eq_of_scan hscan with ⟨rfl, hkind⟩
  rcases List.mem_filterMap.mp houtcome with ⟨mark, hmark, hresolved⟩
  cases mark with
  | begun kind action => simp only [Mark.outcome?, reduceCtorEq] at hresolved
  | resolved kind outcome =>
      rw [Mark.outcome?, Option.some.injEq] at hresolved
      rw [hresolved] at hmark
      rcases Flight.frame_of_answered hmark with ⟨frame, hanswer⟩
      have hfits := fits_of_answer hanswer
      exact Response.toList_words hkind (by rw [hfits.2, ← hfits.1, hkind])

/-! ## Quiet calls -/

namespace Flight

/-- Frames that bring no success to the poll in flight. Once one of them has
    ended it, the others are late, whatever they are. -/
theorem isSuccess_follow {timeout : Millis} {flight : Flight} {frames : List Frame}
    (h : ∀ kind since, flight = .awaiting kind since → ∀ frame ∈ frames, ∀ outcome,
      kind.answer? frame = some outcome → outcome.isSuccess = false) :
    ∀ outcome ∈ outcomes (flight.follow timeout (frames.map .heard)).2,
      outcome.isSuccess = false := by
  induction frames generalizing flight with
  | nil => exact fun outcome houtcome => absurd houtcome List.not_mem_nil
  | cons frame frames ih =>
      intro outcome houtcome
      rw [List.map_cons, follow_cons, outcomes_append] at houtcome
      cases flight with
      | idle => exact ih (fun kind since hflight => Flight.noConfusion hflight) outcome houtcome
      | sending kind =>
          exact ih (fun kind since hflight => Flight.noConfusion hflight) outcome houtcome
      | awaiting kind since =>
          have hrest : ∀ other ∈ frames, ∀ outcome, kind.answer? other = some outcome →
              outcome.isSuccess = false := fun other hother =>
            h kind since rfl other (List.mem_cons_of_mem frame hother)
          -- While the poll is in flight each frame may be its answer.
          cases hanswer : kind.answer? frame with
          | none =>
              simp only [step, hanswer] at houtcome
              refine ih (fun kind' since' hflight => ?_) outcome houtcome
              rw [awaiting.injEq] at hflight
              rw [← hflight.1]
              exact hrest
          | some ended =>
              simp only [step, hanswer] at houtcome
              rcases List.mem_cons.mp houtcome with rfl | hlater
              · exact h kind since rfl frame List.mem_cons_self _ hanswer
              · exact ih (fun kind since hflight => Flight.noConfusion hflight) outcome hlater

/-- Only a frame can bring a success. -/
theorem isSuccess_step {timeout : Millis} {flight : Flight} {occurrence : Occurrence}
    (h : ∀ frame, occurrence ≠ .heard frame) :
    ∀ outcome ∈ outcomes (flight.step timeout occurrence).2, outcome.isSuccess = false := by
  intro outcome houtcome
  unfold step at houtcome
  split at houtcome
  · exact absurd houtcome List.not_mem_nil
  · exact absurd houtcome List.not_mem_nil
  · rw [List.mem_singleton.mp houtcome]
    rfl
  · exact absurd rfl (h _)
  · split at houtcome
    · rw [List.mem_singleton.mp houtcome]
      rfl
    · exact absurd houtcome List.not_mem_nil
  · exact absurd houtcome List.not_mem_nil

end Flight

namespace Master

/-- A call that brings neither a status that can be read nor a success of the
    poll in flight. Only bytes can bring them. -/
def IsQuiet (master : Master) : Call → Prop
  | .hear now bytes => ∀ frame ∈ (master.refreshed now).found bytes, frame.status? = none ∧
      ∀ kind, master.phase = .awaiting kind → ∀ outcome, kind.answer? frame = some outcome →
        outcome.isSuccess = false
  | .poll _ _ | .sent _ | .unsent | .check _ => True

/-- Two masters that agree on the drive, but for the link to it. -/
structure SameView (before after : Master) : Prop where
  valid_eq : after.snapshot.valid = before.snapshot.valid
  status_eq : after.snapshot.status = before.snapshot.status
  identification_eq : after.record.identification = before.record.identification

/-- A quiet call brings no status. Without bytes there is no frame to carry one. -/
theorem statuses_of_isQuiet {master : Master} {call : Call} (h : master.IsQuiet call) :
    statuses (master.occurrences call) = [] := by
  cases call with
  | poll now action =>
      rw [occurrences]
      split <;> rfl
  | sent now => rfl
  | unsent => rfl
  | check now => rfl
  | hear now bytes =>
      refine List.filterMap_eq_nil_iff.mpr fun occurrence hoccurrence => ?_
      rcases List.mem_map.mp hoccurrence with ⟨frame, hframe, rfl⟩
      exact (h frame hframe).1

/-- A quiet call brings no success. Its bytes may end the poll in flight all the
    same, by an answer that does not fit. -/
theorem isSuccess_of_isQuiet {master : Master} (hsettled : master.Settled) {call : Call}
    (h : master.IsQuiet call) :
    ∀ outcome ∈ outcomes (master.marks (master.occurrences call)), outcome.isSuccess = false := by
  rw [marks]
  cases call with
  | poll now action =>
      rw [occurrences]
      split
      · rw [followed_singleton]
        exact Flight.isSuccess_step fun frame => Occurrence.noConfusion
      · exact fun outcome houtcome => absurd houtcome List.not_mem_nil
  | sent now =>
      rw [occurrences, followed_singleton]
      exact Flight.isSuccess_step fun frame => Occurrence.noConfusion
  | unsent =>
      rw [occurrences, followed_singleton]
      exact Flight.isSuccess_step fun frame => Occurrence.noConfusion
  | check now =>
      rw [occurrences, followed_singleton]
      exact Flight.isSuccess_step fun frame => Occurrence.noConfusion
  | hear now bytes =>
      refine Flight.isSuccess_follow fun kind since hflight frame hframe =>
        (h frame hframe).2 kind ?_
      rw [hsettled, hflight]
      rfl

end Master

/-- A history that tells nothing leaves all but the link. -/
theorem DriveRecord.following_of_quiet {occurrences : List Occurrence} {ends : List Outcome}
    (hmute : statuses occurrences = []) (h : ∀ outcome ∈ ends, outcome.isSuccess = false)
    (record : DriveRecord) :
    record.following occurrences ends = { record with link := record.link.afterAll ends } := by
  have hsuccess : Outcome.lastSuccess? ends = none := by
    have hnone : ends.filter Outcome.isSuccess = [] :=
      List.filter_eq_nil_iff.mpr fun outcome houtcome => by
        rw [h outcome houtcome]
        exact Bool.false_ne_true
    rw [Outcome.lastSuccess?, hnone, List.getLast?_nil]
  have hscan : Outcome.lastScan? ends = none := by
    have hnone : ends.filterMap Outcome.scan? = [] :=
      List.filterMap_eq_nil_iff.mpr fun outcome houtcome => by
        cases hscan : outcome.scan? with
        | none => rfl
        | some scan =>
            -- A scan that was answered would be a success.
            have hfailure := h outcome houtcome
            rw [(Outcome.eq_of_scan hscan).1] at hfailure
            exact absurd hfailure.symm Bool.false_ne_true
    rw [Outcome.lastScan?, hnone, List.getLast?_nil]
  rw [following, hmute, hsuccess, hscan]
  rfl

/-! ## Runs -/

namespace Watch

variable {timing : Timing} {watch : Watch}

/-- The record of a run is read off what has occurred, and off the outcomes
    that the reference makes of it. -/
theorem record_of_watched (h : Watched timing watch) :
    watch.master.record = (DriveRecord.new timing.disconnectThreshold).following watch.past
      (outcomes (watch.reference timing).2) :=
  (inStep_of_watched h).course.record_eq

theorem lastStatus_of_watched (h : Watched timing watch) :
    watch.master.record.lastStatus = (statuses watch.past).getLast? := by
  rw [record_of_watched h]
  exact Option.or_none

theorem identification_of_watched (h : Watched timing watch) :
    watch.master.record.identification
      = (Outcome.lastScan? (outcomes (watch.reference timing).2)).map Response.words := by
  rw [record_of_watched h]
  exact Option.or_none

theorem fault_of_watched (h : Watched timing watch) :
    watch.master.record.fault
      = (Outcome.lastSuccess? (outcomes (watch.reference timing).2)).any Outcome.isException := by
  rw [record_of_watched h, DriveRecord.following]
  cases Outcome.lastSuccess? (outcomes (watch.reference timing).2) <;> rfl

/-- The last status heard, with an error put on it if the last success was an
    exception. -/
theorem status_of_watched (h : Watched timing watch) :
    watch.master.snapshot.status
      = if (Outcome.lastSuccess? (outcomes (watch.reference timing).2)).any Outcome.isException then
          ((statuses watch.past).getLast?.getD .unknown).withState .error
        else (statuses watch.past).getLast?.getD .unknown := by
  rw [← fault_of_watched h, ← lastStatus_of_watched h]
  rfl

/-- A quiet call leaves the view of the drive alone, also when it takes the link
    down. -/
theorem sameView_of_isQuiet (h : Watched timing watch) {call : Call}
    (hpermits : watch.Permits call) (hquiet : watch.master.IsQuiet call) :
    watch.master.SameView (watch.call call).master := by
  have hstep := inStep_of_watched h
  rcases call_does hstep hpermits with ⟨_, _, _, hcourse⟩
  have hrecord := hcourse.record_eq
  rw [DriveRecord.following_of_quiet (Master.statuses_of_isQuiet hquiet)
    (Master.isSuccess_of_isQuiet hstep.course.settled hquiet)] at hrecord
  refine ⟨?_, ?_, ?_⟩
  · rw [Master.snapshot, hrecord]
    rfl
  · rw [Master.snapshot, hrecord]
    rfl
  · rw [hrecord]

/-- The snapshot of a run is the fold of its history. After any run of a new
    master whose caller reports on each request once, it is valid exactly if a
    status was heard. Position, target, code and light are those of the last
    status that was heard, or of the unknown one before any. So is the coarse
    state, unless the last success was an exception: then, and only then, it is
    an error. The identification is the last registers of the last answer to a
    bus scan. A call that brings neither a status nor a success changes none of
    this. -/
theorem snapshot_of_watched (h : Watched timing watch) :
    let heard := statuses watch.past
    let ends := outcomes (watch.reference timing).2
    let last := heard.getLast?.getD .unknown
    let view := watch.master.snapshot
    (view.valid = true ↔ heard ≠ []) ∧
    view.status.position = last.position ∧
    view.status.target = last.target ∧
    view.status.code = last.code ∧
    view.status.light = last.light ∧
    view.status.state
      = (if (Outcome.lastSuccess? ends).any Outcome.isException then .error else last.state) ∧
    (view.status.state = .error ↔ ∃ code, Outcome.lastSuccess? ends = some (.excepted code)) ∧
    watch.master.record.identification.map Vector.toList
      = (Outcome.lastScan? ends).map
        (fun scan => scan.registers.drop (scan.registers.length - identificationCount)) ∧
    ∀ call, watch.Permits call → watch.master.IsQuiet call →
      watch.master.SameView (watch.call call).master := by
  intro heard ends last view
  have hstatus : view.status = if (Outcome.lastSuccess? ends).any Outcome.isException then
      last.withState .error else last := status_of_watched h
  have hstate : view.status.state
      = if (Outcome.lastSuccess? ends).any Outcome.isException then .error else last.state := by
    rw [hstatus, apply_ite DoorStatus.state]
    rfl
  refine ⟨?_, ?_, ?_, ?_, ?_, hstate, ?_, ?_, fun call hpermits hquiet =>
    sameView_of_isQuiet h hpermits hquiet⟩
  · have hvalid : view.valid = heard.getLast?.isSome :=
      congrArg Option.isSome (lastStatus_of_watched h)
    rw [hvalid, List.getLast?_isSome]
  -- The error only touches the coarse state.
  · rw [hstatus]
    split <;> rfl
  · rw [hstatus]
    split <;> rfl
  · rw [hstatus]
    split <;> rfl
  · rw [hstatus]
    split <;> rfl
  · rw [hstate, ← Outcome.any_isException_iff]
    by_cases hexcepted : (Outcome.lastSuccess? ends).any Outcome.isException = true
    · rw [if_pos hexcepted]
      exact iff_of_true rfl hexcepted
    · rw [if_neg hexcepted]
      exact iff_of_false (state_getLast_statuses watch.past) hexcepted
  · rw [identification_of_watched h, Option.map_map]
    cases hscan : Outcome.lastScan? ends with
    | none => rfl
    | some scan => exact congrArg some (toList_words_lastScan hscan)

/-- A door that opens, of a drive that has answered a bus scan and then a
    command poll by an exception. -/
theorem snapshot_of_watched_fault :
    ∃ watch, Watched (.ofMode .highPerformance) watch ∧
      watch.master.snapshot.valid = true ∧ watch.master.snapshot.status.position = 50 ∧
      watch.master.snapshot.status.target = 200 ∧ watch.master.snapshot.status.code = .opening ∧
      watch.master.snapshot.status.light = true ∧ watch.master.snapshot.status.state = .error ∧
      watch.master.record.identification.map Vector.toList = some [0x0430, 0x10FF, 0xA845] := by
  have hstart : Watched (.ofMode .highPerformance) (on (.new (.ofMode .highPerformance))) := .start
  have hscan := Watched.call (.poll 1000 ⟨0⟩) hstart (by decide +kernel)
  have hscanSent := Watched.call (.sent 1002) hscan (by decide +kernel)
  have hanswered := Watched.call (.hear 1010 [0x02, 0x17, 0x0A, 0x00, 0x00, 0x00, 0x05, 0x04, 0x30,
    0x10, 0xFF, 0xA8, 0x45, 0x8F, 0x06]) hscanSent (by decide +kernel)
  have hopening := Watched.call (.hear 1020 [0x00, 0x10, 0x9D, 0x31, 0x00, 0x09, 0x12, 0x00, 0x00,
    0xC8, 0x32, 0x01, 0x00, 0x00, 0x00, 0x00, 0x00, 0x00, 0x00, 0x00, 0x10, 0x00, 0x00, 0x00, 0x00,
    0x20, 0x6C]) hanswered (by decide +kernel)
  have hpoll := Watched.call (.poll 2000 ⟨0x10⟩) hopening (by decide +kernel)
  have hpollSent := Watched.call (.sent 2002) hpoll (by decide +kernel)
  have hexcepted := Watched.call (.hear 2010 [0x02, 0x97, 0x04, 0xBF, 0xF3]) hpollSent
    (by decide +kernel)
  -- A scan, a status on the way, and a command poll that is answered by an
  -- exception.
  rcases snapshot_of_watched hexcepted with
    ⟨hvalid, hposition, htarget, hcode, hlight, _, hstate, hidentification, _⟩
  refine ⟨_, hexcepted, hvalid.mpr ?_, hposition.trans ?_, htarget.trans ?_, hcode.trans ?_,
    hlight.trans ?_, hstate.mpr ⟨4, ?_⟩, hidentification.trans ?_⟩
  · decide +kernel
  · decide +kernel
  · decide +kernel
  · decide +kernel
  · decide +kernel
  · decide +kernel
  · decide +kernel

end Watch

end DoorBus

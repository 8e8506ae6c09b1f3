import DoorBus.Proofs.Master.Watch

/-!
# What the Drive Asks For

The answer to a command poll may hold a code, by which the drive asks for an
action. This module follows the codes from the marks of a run to its notes.
Every code in an answer is noted, and nothing else is noted as one. What
comes in resolves one poll at most until the next one is begun, so that
between two polls there is one code at most.

## Main definitions

* `Outcome.request?`, `requests`: What the drive asks for.
* `Occurrence.isInbound`: What only comes in.

## Theorems

* `requests_of_course`: The noted requests are those of the marks.
* `past_callAll`: What calls stand for is of their direction.
* `length_follow_inbound`: What comes in resolves one poll at most.
* `requests_follow_outbound`: No answer comes without a frame.
* `kind_of_answered`: An answer is of the kind that its poll asked for.
* `split_at_request`: When the request is among the first notes.
-/

namespace DoorBus

open Master (Call)

/-- The code that the drive asks for in an outcome. -/
def Outcome.request? : Outcome → Option UInt16
  | answered response => response.driveRequest?
  | excepted _ | rejected _ | overdue | unsent => none

/-- The codes that the drive asks for, by the marks. -/
def requests (marks : List Mark) : List UInt16 :=
  (outcomes marks).filterMap Outcome.request?

theorem requests_append (xs ys : List Mark) : requests (xs ++ ys) = requests xs ++ requests ys := by
  rw [requests, outcomes_append, List.filterMap_append]
  rfl

/-- Each poll that ends adds its own request, if its answer carries one. -/
theorem requests_resolved (kind : PollKind) (outcome : Outcome) (marks : List Mark) :
    requests (.resolved kind outcome :: marks) = outcome.request?.toList ++ requests marks := by
  have hcons : requests (.resolved kind outcome :: marks)
      = (outcome :: outcomes marks).filterMap Outcome.request? := rfl
  rw [hcons, filterMap_cons_toList, requests]

theorem length_requests_le_marks (marks : List Mark) : (requests marks).length ≤ marks.length :=
  Nat.le_trans (List.length_filterMap_le _ _) (List.length_filterMap_le _ _)

/-! ## Notes of requests -/

/-- Remarks tell of no request. -/
theorem filterMap_tidings (notes : List Event) :
    (tidings notes).filterMap Event.driveRequest? = notes.filterMap Event.driveRequest? := by
  rw [tidings, List.filterMap_filter]
  congr 1
  funext event
  cases event <;> rfl

theorem filterMap_change (change : LinkChange) :
    change.notes.filterMap Event.driveRequest? = [] := by
  cases change <;> rfl

/-- An answer tells of the request in its third register, where zero stands for
    none. -/
theorem filterMap_news (response : Response) :
    response.news.filterMap Event.driveRequest? = response.driveRequest?.toList := by
  unfold Response.news Response.driveRequest?
  cases response.kind with
  | busScan => rfl
  | commandPoll =>
      simp only []
      cases response.registers[2]?.filter (· != 0) with
      | none => rfl
      | some code => rfl

/-- Beside the note of its answer an outcome notes no request, whatever it does
    to the link. -/
theorem filterMap_notes (kind : PollKind) (change : LinkChange) (outcome : Outcome) :
    (outcome.notes kind change).filterMap Event.driveRequest? = outcome.request?.toList := by
  cases outcome with
  | answered response =>
      rw [Outcome.notes, List.filterMap_append, List.filterMap_append, filterMap_change,
        filterMap_news]
      exact List.append_nil _
  | excepted code => exact filterMap_change change
  | rejected fault => exact filterMap_change change
  | overdue => exact filterMap_change change
  | unsent => exact filterMap_change change

/-- The notes of some marks tell of just the requests that the marks hold, in
    their order. -/
theorem filterMap_report (link : Link) (marks : List Mark) :
    (link.report marks).filterMap Event.driveRequest? = requests marks := by
  induction marks generalizing link with
  | nil => rfl
  | cons mark marks ih =>
      cases mark with
      | begun kind action => exact ih link
      | resolved kind outcome =>
          rw [Link.report, List.filterMap_append, filterMap_notes, ih, requests_resolved]

/-- The noted requests are those of the marks. -/
theorem requests_of_course {before after : Master} {occurrences : List Occurrence}
    {notes : List Event} (h : Master.Course before occurrences after notes) :
    notes.filterMap Event.driveRequest? = requests (before.marks occurrences) := by
  rw [← filterMap_tidings, h.tidings_eq, filterMap_report]

/-! ## One request at most -/

/-- Whether something only comes in. -/
def Occurrence.isInbound : Occurrence → Bool
  | heard _ | looked _ => true
  | begun _ _ | sent _ | unsent => false

/-- A call only brings occurrences of its own direction. -/
theorem isInbound_occurrences (master : Master) (call : Call) :
    ∀ occurrence ∈ master.occurrences call, occurrence.isInbound = call.isInbound := by
  cases call with
  | poll now action =>
      rw [Master.occurrences]
      by_cases hout : (master.request? (.poll now action)).isSome = true
      · rw [if_pos hout]
        exact List.forall_mem_singleton.mpr rfl
      · rw [if_neg hout]
        exact List.forall_mem_nil _
  | sent now => exact List.forall_mem_singleton.mpr rfl
  | unsent => exact List.forall_mem_singleton.mpr rfl
  | hear now bytes =>
      intro occurrence hoccurrence
      rcases List.mem_map.mp hoccurrence with ⟨frame, _, rfl⟩
      rfl
  | check now => exact List.forall_mem_singleton.mpr rfl

/-- The past only grows, and by occurrences of the direction of the calls. -/
theorem past_callAll (watch : Watch) {inbound : Bool} {calls : List Call}
    (h : ∀ call ∈ calls, call.isInbound = inbound) :
    ∃ more, (watch.callAll calls).past = watch.past ++ more ∧
      ∀ occurrence ∈ more, occurrence.isInbound = inbound := by
  induction calls generalizing watch with
  | nil => exact ⟨[], (List.append_nil _).symm, List.forall_mem_nil _⟩
  | cons call calls ih =>
      have hcalls : ∀ other ∈ calls, other.isInbound = inbound := fun other hother =>
        h other (List.mem_cons_of_mem call hother)
      rcases ih (watch.call call) hcalls with ⟨more, hpast, hmore⟩
      refine ⟨watch.master.occurrences call ++ more, ?_, fun occurrence hoccurrence => ?_⟩
      · rw [Watch.callAll_cons, hpast, ← List.append_assoc]
        rfl
      · rcases List.mem_append.mp hoccurrence with hnow | hlater
        · rw [isInbound_occurrences watch.master call occurrence hnow]
          exact h call List.mem_cons_self
        · exact hmore occurrence hlater

namespace Flight

/-- What comes in resolves nothing but a poll whose answer is due. -/
theorem step_inbound (timeout : Millis) (flight : Flight) {occurrence : Occurrence}
    (h : occurrence.isInbound = true) :
    flight.step timeout occurrence = (flight, []) ∨
      ∃ mark, flight.step timeout occurrence = (.idle, [mark]) := by
  cases flight with
  | idle =>
      cases occurrence <;> first
        | exact .inl rfl
        | exact absurd h Bool.false_ne_true
  | sending kind =>
      cases occurrence <;> first
        | exact .inl rfl
        | exact absurd h Bool.false_ne_true
  | awaiting kind since =>
      cases occurrence with
      | heard frame =>
          rw [step]
          cases kind.answer? frame with
          | none => exact .inl rfl
          | some outcome => exact .inr ⟨_, rfl⟩
      | looked now =>
          rw [step]
          by_cases hlate : timeout ≤ Millis.elapsed since now
          · rw [if_pos hlate]
            exact .inr ⟨_, rfl⟩
          · rw [if_neg hlate]
            exact .inl rfl
      | begun kind action => exact absurd h Bool.false_ne_true
      | sent now => exact absurd h Bool.false_ne_true
      | unsent => exact absurd h Bool.false_ne_true

theorem follow_inbound_idle {timeout : Millis} {occurrences : List Occurrence}
    (h : ∀ occurrence ∈ occurrences, occurrence.isInbound = true) :
    idle.follow timeout occurrences = (idle, []) := by
  induction occurrences with
  | nil => rfl
  | cons occurrence occurrences ih =>
      have hstep : idle.step timeout occurrence = (idle, []) := by
        have hinbound := h occurrence List.mem_cons_self
        cases occurrence <;> first
          | rfl
          | exact absurd hinbound Bool.false_ne_true
      have hrest := ih fun other hother => h other (List.mem_cons_of_mem occurrence hother)
      rw [follow_cons, hstep, hrest, List.append_nil]

/-- What comes in resolves one poll at most, since none is begun. -/
theorem length_follow_inbound {timeout : Millis} {flight : Flight} {occurrences : List Occurrence}
    (h : ∀ occurrence ∈ occurrences, occurrence.isInbound = true) :
    (flight.follow timeout occurrences).2.length ≤ 1 := by
  induction occurrences with
  | nil => exact Nat.zero_le 1
  | cons occurrence occurrences ih =>
      have hrest : ∀ other ∈ occurrences, other.isInbound = true := fun other hother =>
        h other (List.mem_cons_of_mem occurrence hother)
      rw [follow_cons]
      rcases step_inbound timeout flight (h occurrence List.mem_cons_self) with
        hstep | ⟨mark, hstep⟩
      · rw [hstep, List.nil_append]
        exact ih hrest
      -- Once resolved, there is nothing left in flight to be resolved.
      · rw [hstep, follow_inbound_idle hrest]
        exact Nat.le_refl 1

/-- No answer comes without a frame. -/
theorem requests_follow_outbound {timeout : Millis} {flight : Flight}
    {occurrences : List Occurrence} (h : ∀ occurrence ∈ occurrences, occurrence.isInbound = false) :
    requests (flight.follow timeout occurrences).2 = [] := by
  induction occurrences generalizing flight with
  | nil => rfl
  | cons occurrence occurrences ih =>
      have hstep : requests (flight.step timeout occurrence).2 = [] := by
        have houtbound := h occurrence List.mem_cons_self
        cases occurrence with
        | begun kind action => cases flight <;> rfl
        | sent now => cases flight <;> rfl
        | unsent => cases flight <;> rfl
        | heard frame => exact absurd houtbound Bool.noConfusion
        | looked now => exact absurd houtbound Bool.noConfusion
      rw [follow_cons, requests_append, hstep,
        ih fun other hother => h other (List.mem_cons_of_mem occurrence hother), List.append_nil]

end Flight

/-! ## Answers -/

/-- An answer in the marks is of the kind that its poll asked for. -/
theorem kind_of_answered {timeout : Millis} {flight : Flight} {occurrences : List Occurrence}
    {kind : PollKind} {response : Response}
    (h : .resolved kind (.answered response) ∈ (flight.follow timeout occurrences).2) :
    response.kind = kind := by
  rcases Flight.frame_of_answered h with ⟨frame, hanswer⟩
  exact (fits_of_answer hanswer).1

/-- A code in an answer of the run is among its requests. -/
theorem mem_requests {marks : List Mark} {kind : PollKind} {response : Response} {code : UInt16}
    (h : .resolved kind (.answered response) ∈ marks) (hcode : response.driveRequest? = some code) :
    code ∈ requests marks :=
  List.mem_filterMap.mpr ⟨.answered response, List.mem_filterMap.mpr ⟨_, h, rfl⟩, hcode⟩

/-! ## Among the first notes -/

theorem eq_of_driveRequest {event : Event} {code : UInt16} (h : event.driveRequest? = some code) :
    event = .driveRequest code := by
  cases event with
  | driveRequest other => rw [Option.some.inj h]
  | _ => exact absurd h (by simp only [Event.driveRequest?, reduceCtorEq, not_false_eq_true])

/-- Where the only request stands among some notes, and when it is one of the
    first ones. -/
theorem split_at_request {notes : List Event} {code : UInt16}
    (h : notes.filterMap Event.driveRequest? = [code]) :
    ∃ before after, notes = before ++ .driveRequest code :: after ∧ ∀ room,
      (before.length < room → (notes.take room).filterMap Event.driveRequest? = [code]) ∧
      (room ≤ before.length → (notes.take room).filterMap Event.driveRequest? = []) := by
  rcases List.filterMap_eq_cons_iff.mp h with ⟨before, event, after, rfl, hbefore, hevent, hafter⟩
  have hnone := List.filterMap_eq_nil_iff.mpr hbefore
  rw [eq_of_driveRequest hevent]
  refine ⟨before, after, rfl, fun room => ⟨fun hroom => ?_, fun hfull => ?_⟩⟩
  -- With room for one more note than precede it, the request is kept.
  · have hleft : room - before.length = room - before.length - 1 + 1 := by omega
    have hlater : (after.take (room - before.length - 1)).filterMap Event.driveRequest? = [] :=
      List.filterMap_eq_nil_iff.mpr fun other hother =>
        List.filterMap_eq_nil_iff.mp hafter other (List.mem_of_mem_take hother)
    rw [List.take_append, List.take_of_length_le (Nat.le_of_lt hroom), hleft, List.take_succ_cons,
      List.filterMap_append, hnone, List.nil_append, List.filterMap_cons_some (by rfl), hlater]
  -- Without, all notes that are kept precede it.
  · rw [List.take_append_of_le_length hfull]
    exact List.filterMap_eq_nil_iff.mpr fun other hother =>
      hbefore other (List.mem_of_mem_take hother)

end DoorBus

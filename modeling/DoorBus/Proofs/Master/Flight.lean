import DoorBus.Proofs.Master.Supervision

/-!
# Polls in Flight

A reference for what a run of the bus master amounts to. It knows neither the
phases of the master nor its link. It is told what occurs: a request is handed
out, it is sent or is not, a frame comes, someone looks at the clock. From
that it follows the one poll in flight, and writes a `Mark` when a poll is
begun and when it is resolved.

A request that is handed out is marked whatever is in flight. So it is
something to be proved of a run that its marks take turns: each poll is begun
while none is in flight, and is resolved once, before the next one.

## Main definitions

* `Occurrence`: What may occur.
* `Flight`: The poll in flight.
* `Flight.follow`: The flight after some occurrences, with the marks.
* `Alternates`: Marks that take turns.
* `Link.report`: The notes that marks lead to, from the link.
* `chronicle`: The same notes, from the outcomes.

## Theorems

* `follow_append`, `report_append`: A run can be followed in parts.
* `frame_of_answered`: An answer in the marks comes from a frame.
* `alternates_append`: Marks that take turns can be put together.
* `report_eq_chronicle`: The notes are a function of the outcomes alone.
-/

namespace DoorBus

/-- Something that occurs to a bus master and may concern a poll. -/
inductive Occurrence
  /-- A request is handed out. -/
  | begun (kind : PollKind) (action : ActionCode)
  /-- It has been sent. -/
  | sent (now : Millis)
  /-- It could not be sent. -/
  | unsent
  /-- A frame comes. -/
  | heard (frame : Frame)
  /-- Someone looks at the clock. -/
  | looked (now : Millis)

/-- The poll in flight. -/
inductive Flight
  /-- There is none. -/
  | idle
  /-- Its request is being sent. -/
  | sending (kind : PollKind)
  /-- Its answer is due, since some time. -/
  | awaiting (kind : PollKind) (since : Millis)
  deriving DecidableEq

/-- A mark in the course of polls. -/
inductive Mark
  /-- A poll is begun. -/
  | begun (kind : PollKind) (action : ActionCode)
  /-- A poll is resolved. -/
  | resolved (kind : PollKind) (outcome : Outcome)
  deriving DecidableEq

/-- The outcome that a mark is about, if it is about one. -/
def Mark.outcome? : Mark → Option Outcome
  | begun _ _ => none
  | resolved _ outcome => some outcome

/-- The outcomes among marks. -/
def outcomes (marks : List Mark) : List Outcome :=
  marks.filterMap Mark.outcome?

theorem outcomes_append (xs ys : List Mark) : outcomes (xs ++ ys) = outcomes xs ++ outcomes ys :=
  List.filterMap_append

namespace Flight

/-- Kind of the poll in flight. -/
def kind? : Flight → Option PollKind
  | idle => none
  | sending kind | awaiting kind _ => some kind

/-- The phase that a flight is seen as. -/
def phase : Flight → Phase
  | idle => .idle
  | sending kind => .sending kind
  | awaiting kind _ => .awaiting kind

/-- What becomes of a flight, for an answer that may take a given time. -/
def step (timeout : Millis) : Flight → Occurrence → Flight × List Mark
  | _, .begun kind action => (sending kind, [.begun kind action])
  | sending kind, .sent now => (awaiting kind now, [])
  | sending kind, .unsent => (idle, [.resolved kind .unsent])
  | awaiting kind since, .heard frame =>
    match kind.answer? frame with
    | some outcome => (idle, [.resolved kind outcome])
    | none => (awaiting kind since, [])
  | awaiting kind since, .looked now =>
    if timeout ≤ Millis.elapsed since now then
      (idle, [.resolved kind .overdue])
    else
      (awaiting kind since, [])
  | flight, _ => (flight, [])

/-- The flight after some occurrences, with the marks on the way. -/
def follow (timeout : Millis) (flight : Flight) : List Occurrence → Flight × List Mark
  | [] => (flight, [])
  | occurrence :: rest =>
    let (flight, marks) := flight.step timeout occurrence
    let (flight, more) := flight.follow timeout rest
    (flight, marks ++ more)

/-- The flight goes on from where the first occurrence has left it. -/
theorem follow_cons (timeout : Millis) (flight : Flight) (occurrence : Occurrence)
    (rest : List Occurrence) :
    flight.follow timeout (occurrence :: rest)
      = (((flight.step timeout occurrence).1.follow timeout rest).1,
        (flight.step timeout occurrence).2
          ++ ((flight.step timeout occurrence).1.follow timeout rest).2) := rfl

theorem follow_singleton (timeout : Millis) (flight : Flight) (occurrence : Occurrence) :
    flight.follow timeout [occurrence] = flight.step timeout occurrence := by
  rw [follow_cons, follow, List.append_nil]

/-- The flight after one run and another. The induction of a course over calls
    rests on it. -/
theorem follow_append (timeout : Millis) (flight : Flight) (xs ys : List Occurrence) :
    flight.follow timeout (xs ++ ys)
      = (((flight.follow timeout xs).1.follow timeout ys).1,
        (flight.follow timeout xs).2 ++ ((flight.follow timeout xs).1.follow timeout ys).2) := by
  induction xs generalizing flight with
  | nil => rfl
  | cons occurrence xs ih =>
      rw [List.cons_append, follow_cons, ih, follow_cons, List.append_assoc]

variable {timeout : Millis} {flight : Flight} {kind : PollKind} {response : Response}

theorem frame_of_answered_step {occurrence : Occurrence}
    (h : .resolved kind (.answered response) ∈ (flight.step timeout occurrence).2) :
    ∃ frame, kind.answer? frame = some (.answered response) := by
  -- Of all steps only a frame leads to an answered poll.
  unfold step at h
  split at h
  · simp only [List.mem_singleton, reduceCtorEq] at h
  · exact absurd h List.not_mem_nil
  · simp only [List.mem_singleton, Mark.resolved.injEq, reduceCtorEq, and_false] at h
  · split at h
    · next since frame found outcome hanswer =>
        rw [List.mem_singleton, Mark.resolved.injEq] at h
        exact ⟨frame, by rw [h.1, h.2, hanswer]⟩
    · exact absurd h List.not_mem_nil
  · split at h
    · simp only [List.mem_singleton, Mark.resolved.injEq, reduceCtorEq, and_false] at h
    · exact absurd h List.not_mem_nil
  · exact absurd h List.not_mem_nil

/-- An answer in the marks comes from a frame. -/
theorem frame_of_answered {occurrences : List Occurrence}
    (h : .resolved kind (.answered response) ∈ (flight.follow timeout occurrences).2) :
    ∃ frame, kind.answer? frame = some (.answered response) := by
  induction occurrences generalizing flight with
  | nil => exact absurd h List.not_mem_nil
  | cons occurrence occurrences ih =>
      rw [follow_cons] at h
      rcases List.mem_append.mp h with hnow | hlater
      · exact frame_of_answered_step hnow
      · exact ih hlater

end Flight

/-! ## Taking turns -/

/-- Marks that take turns, from one poll in flight to another: a poll is begun
    while none is in flight, and is resolved while it is. -/
inductive Alternates : Option PollKind → List Mark → Option PollKind → Prop
  /-- Nothing happens. -/
  | done (flying : Option PollKind) : Alternates flying [] flying
  /-- A poll is begun. -/
  | begin {kind : PollKind} {action : ActionCode} {marks : List Mark} {last : Option PollKind} :
    Alternates (some kind) marks last → Alternates none (.begun kind action :: marks) last
  /-- The poll in flight is resolved. -/
  | resolve {kind : PollKind} {outcome : Outcome} {marks : List Mark} {last : Option PollKind} :
    Alternates none marks last → Alternates (some kind) (.resolved kind outcome :: marks) last

theorem alternates_append {first middle last : Option PollKind} {xs ys : List Mark}
    (hxs : Alternates first xs middle) (hys : Alternates middle ys last) :
    Alternates first (xs ++ ys) last := by
  -- The first marks are taken off one by one, and the rest is glued to the second.
  induction hxs with
  | done flying => exact hys
  | begin _ ih => exact .begin (ih hys)
  | resolve _ ih => exact .resolve (ih hys)

/-! ## Notes -/

/-- Whether a note is only a remark, on something that concerns no poll. -/
def Event.isRemark : Event → Bool
  | statusUpdated _ | statusRejected _ | frameDropped _ | lateResponse => true
  | _ => false

/-- The notes that are no remarks. -/
def tidings (events : List Event) : List Event :=
  events.filter fun event => !event.isRemark

theorem tidings_append (xs ys : List Event) : tidings (xs ++ ys) = tidings xs ++ tidings ys :=
  List.filter_append xs ys

/-- A change of the link is tidings throughout. -/
theorem tidings_change (change : LinkChange) : tidings change.notes = change.notes := by
  cases change <;> rfl

theorem tidings_news (response : Response) : tidings response.news = response.news := by
  unfold Response.news
  cases response.kind with
  | busScan => rfl
  | commandPoll => cases response.driveRequest? <;> rfl

/-- Everything noted of an outcome concerns its poll. -/
theorem tidings_notes (kind : PollKind) (change : LinkChange) (outcome : Outcome) :
    tidings (outcome.notes kind change) = outcome.notes kind change := by
  cases outcome with
  | answered response =>
      rw [Outcome.notes, tidings_append, tidings_append, tidings_change, tidings_news]
      rfl
  | excepted code => exact congrArg (_ :: ·) (tidings_change change)
  | rejected fault => exact congrArg (_ :: _ :: ·) (tidings_change change)
  | overdue => exact congrArg (_ :: ·) (tidings_change change)
  | unsent => exact congrArg (_ :: ·) (tidings_change change)

/-- Any other frame only leads to remarks. -/
theorem tidings_remarks (record : DriveRecord) (frame : Frame) :
    tidings (record.remarks frame) = [] := by
  unfold DriveRecord.remarks
  cases Incoming.ofFrame frame with
  | error error => rfl
  | ok incoming =>
      cases incoming with
      | broadcast inner =>
          simp only []
          cases DoorStatus.ofFrame inner with
          | ok status =>
              simp only []
              cases (record.hear status).2 <;> rfl
          | error error => rfl
      | response answer => rfl
      | exception code => rfl

/-- The notes that marks lead to, from a given state of the link. -/
def Link.report (link : Link) : List Mark → List Event
  | [] => []
  | .begun kind action :: marks => .sent kind action :: link.report marks
  | .resolved kind outcome :: marks =>
    outcome.notes kind (link.after outcome).2 ++ (link.after outcome).1.report marks

theorem report_append (link : Link) (xs ys : List Mark) :
    link.report (xs ++ ys) = link.report xs ++ (link.afterAll (outcomes xs)).report ys := by
  induction xs generalizing link with
  | nil => rfl
  | cons mark xs ih =>
      cases mark with
      | begun kind action => exact congrArg (_ :: ·) (ih link)
      | resolved kind outcome =>
          -- Only here the link moves, for both parts alike.
          rw [List.cons_append, Link.report, ih, Link.report, List.append_assoc]
          rfl

/-- The notes that marks lead to, from what was resolved before. Whether the
    link comes up or goes down is seen from the outcomes alone. -/
def chronicle (threshold : UInt8) (past : List Outcome) : List Mark → List Event
  | [] => []
  | .begun kind action :: marks => .sent kind action :: chronicle threshold past marks
  | .resolved kind outcome :: marks =>
    outcome.notes kind (.between (Outcome.holdUp threshold past)
        (Outcome.holdUp threshold (past ++ [outcome])))
      ++ chronicle threshold (past ++ [outcome]) marks

theorem report_eq_chronicle {link : Link} {threshold : UInt8} {past : List Outcome}
    (h : link.Reflects threshold past) (marks : List Mark) :
    link.report marks = chronicle threshold past marks := by
  -- The link goes on to stand as the outcomes say, with each outcome added to the past.
  induction marks generalizing link past with
  | nil => rfl
  | cons mark marks ih =>
      cases mark with
      | begun kind action => exact congrArg (_ :: ·) (ih h)
      | resolved kind outcome =>
          rw [Link.report, Link.change_of_reflects h, ih (Link.reflects_after h outcome),
            chronicle]

end DoorBus

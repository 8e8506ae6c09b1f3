import DoorBus.Proofs.Master.Flight

/-!
# What a History Tells of the Drive

The record of the drive is written in several places: a broadcast leaves a
status, the end of a poll moves the link and the mark of a fault, and a bus
scan leaves the words of identification. None of these places looks at what
the others have written.

So the record can be read off the history. Each part of it is the last thing
that the history has to say about it, or what was there before if it says
nothing. `DriveRecord.following` is this reading, and the lemmas about it say
what one occurrence adds. That a run of the master keeps to it is shown where
its course is.

## Main definitions

* `statuses`: The statuses that were heard.
* `Outcome.lastSuccess?`, `Outcome.lastScan?`: The last outcome that tells of
  a fault, and the last one that tells of the identification.
* `DriveRecord.following`: The record that a history leads to.

## Theorems

* `filterMap_cons_toList`: Reading goes one by one.
* `following_append`: A history can be read in parts.
* `following_heard`: A frame that is no outcome.
* `following_of_mute`: An outcome, with nothing heard beside it.
* `status_of_answer`: A frame that answers a poll is no status.
-/

namespace DoorBus

/-! ## Reading a history -/

theorem filterMap_cons_toList {α β : Type} (f : α → Option β) (x : α) (xs : List α) :
    (x :: xs).filterMap f = (f x).toList ++ xs.filterMap f := by
  rw [List.filterMap_cons]
  cases f x <;> rfl

/-- The status that a frame broadcasts, if it can be read. -/
def Frame.status? (frame : Frame) : Option DoorStatus :=
  match Incoming.ofFrame frame with
  | .ok (.broadcast inner) => (DoorStatus.ofFrame inner).toOption
  | .ok (.response _) | .ok (.exception _) | .error _ => none

/-- The status that is heard in an occurrence. -/
def Occurrence.status? : Occurrence → Option DoorStatus
  | heard frame => frame.status?
  | begun _ _ | sent _ | unsent | looked _ => none

/-- The statuses that were heard. -/
def statuses (occurrences : List Occurrence) : List DoorStatus :=
  occurrences.filterMap Occurrence.status?

theorem statuses_append (xs ys : List Occurrence) :
    statuses (xs ++ ys) = statuses xs ++ statuses ys :=
  List.filterMap_append

/-- A frame that answers a poll is no status. -/
theorem status_of_answer {kind : PollKind} {frame : Frame} {outcome : Outcome}
    (h : kind.answer? frame = some outcome) : frame.status? = none := by
  unfold PollKind.answer? at h
  unfold Frame.status?
  cases hincoming : Incoming.ofFrame frame with
  | error error => rfl
  | ok incoming =>
      rw [hincoming] at h
      cases incoming with
      | broadcast inner => exact absurd h (by simp only [reduceCtorEq, not_false_eq_true])
      | response answer => rfl
      | exception code => rfl

namespace Outcome

/-- Whether the drive answered with an exception. -/
def isException : Outcome → Bool
  | excepted _ => true
  | answered _ | rejected _ | overdue | unsent => false

/-- The answer to a bus scan, if that is what the outcome is. -/
def scan? : Outcome → Option Response
  | answered response =>
    match response.kind with
    | .busScan => some response
    | .commandPoll => none
  | excepted _ | rejected _ | overdue | unsent => none

/-- The last outcome that was a success. -/
def lastSuccess? (outcomes : List Outcome) : Option Outcome :=
  (outcomes.filter isSuccess).getLast?

/-- The last answer to a bus scan. -/
def lastScan? (outcomes : List Outcome) : Option Response :=
  (outcomes.filterMap scan?).getLast?

/-- The later half decides, unless it has no success. -/
theorem lastSuccess_append (xs ys : List Outcome) :
    lastSuccess? (xs ++ ys) = (lastSuccess? ys).or (lastSuccess? xs) := by
  rw [lastSuccess?, List.filter_append, List.getLast?_append]
  rfl

theorem lastScan_append (xs ys : List Outcome) :
    lastScan? (xs ++ ys) = (lastScan? ys).or (lastScan? xs) := by
  rw [lastScan?, List.filterMap_append, List.getLast?_append]
  rfl

end Outcome

/-! ## The record -/

namespace DriveRecord

/-- The record that a history leads to, from what was heard in it and how its
    polls ended. -/
def following (record : DriveRecord) (occurrences : List Occurrence) (outcomes : List Outcome) :
    DriveRecord where
  lastStatus := (statuses occurrences).getLast?.or record.lastStatus
  fault := ((Outcome.lastSuccess? outcomes).map Outcome.isException).getD record.fault
  link := record.link.afterAll outcomes
  identification := ((Outcome.lastScan? outcomes).map Response.words).or record.identification

/-- A history can be read in parts, since the later part has the last word
    wherever it says anything. -/
theorem following_append (record : DriveRecord) (xs ys : List Occurrence)
    (before after : List Outcome) :
    (record.following xs before).following ys after
      = record.following (xs ++ ys) (before ++ after) := by
  simp only [following, statuses_append, Outcome.lastSuccess_append, Outcome.lastScan_append,
    Link.afterAll_append, List.getLast?_append, Option.or_assoc, Option.map_or, Option.getD_or]

/-- A frame that is no outcome. -/
theorem following_heard (record : DriveRecord) (frame : Frame) :
    record.following [.heard frame] [] = record.overhear frame := by
  have hstatuses : statuses [.heard frame] = frame.status?.toList := by
    rw [statuses, filterMap_cons_toList, List.filterMap_nil, List.append_nil]
    rfl
  rw [following, hstatuses]
  unfold Frame.status? overhear
  cases Incoming.ofFrame frame with
  | error error => rfl
  | ok incoming =>
      cases incoming with
      | broadcast inner =>
          simp only []
          cases DoorStatus.ofFrame inner with
          | ok status => rfl
          | error error => rfl
      | response answer => rfl
      | exception code => rfl

/-- An outcome, with nothing heard beside it. -/
theorem following_of_mute {occurrences : List Occurrence} (h : statuses occurrences = [])
    (record : DriveRecord) (outcome : Outcome) :
    record.following occurrences [outcome] = record.after outcome := by
  rw [following, h]
  cases outcome with
  | answered response =>
      rw [after, learn, Outcome.lastScan?, List.filterMap_cons, Outcome.scan?]
      cases response.kind <;> rfl
  | excepted code => rfl
  | rejected fault => rfl
  | overdue => rfl
  | unsent => rfl

end DriveRecord

end DoorBus

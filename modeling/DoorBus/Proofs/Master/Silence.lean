import Mathlib.Data.List.Chain
import DoorBus.Proofs.Master.Offset
import DoorBus.Proofs.Wire.Recogniser

/-!
# Frames Between Silences

What a bus master reads arrives in chunks, and where one chunk ends and the
next begins is up to whoever reads the line. The frames should not depend on
it. What they do depend on is silence: an unfinished frame is given up once no
byte has come for the length of a gap.

A `Tape` tells of a run what the line brought, and nothing of what the master
made of it. It cuts the bytes into pieces. A cut stands in front of a chunk if
the chunk comes at least a gap behind the one before it, or if someone looked
at the clock between the two and it was so by then. The frames that the master
deals with are those that a new receiver finds in each piece on its own.

The master does not keep the tape. It keeps the bytes of an unfinished frame
and the time of the last chunk, and gives up the bytes in two places. Often
there is nothing to give up at a cut, because the last byte of the piece ended
a frame. That makes no difference, since a receiver without bytes is a new
one.

Whoever has a chunk may as well bring it in parts, as long as no part comes a
gap behind the one before it. Only the time of the last part is left of that,
which is what the next silence is measured from.

As before nothing is asked of the caller, who may use the master in any order.

## Main definitions

* `Master.handed`, `Master.handedAll`: The frames that a run deals with.
* `Master.dealt`: What frames do to a master.
* `Tape`: What the line brought, cut at silences.
* `Chunk`: Bytes that come at once.
* `Master.hearEach`: Chunks, one after the other.
* `Master.Ear`: The part of a master that bytes and silences concern.

## Theorems

* `Session.found_inOrder`: Frames that are found stand in the bytes in order.
* `handedBytes_eq_found`: The frames dealt with are those that are found.
* `hearBytes_dealt`, `hear_dealt`: They are those that the handler is given.
* `refreshed_eq`: A long silence leaves a new receiver.
* `hear_ear`, `checkTimeouts_ear`, `poll_ear`: What each use does to the ear.
* `Tape.flatten_ofUses`: The pieces make up all bytes.
* `matches_take`, `handed_take`: One use, on the master and on the tape.
* `hearEach_tail`, `hearEach_eq_hear`: Parts that come in time are heard as one.
* `handedAll_eq_found`: Frames depend on the bytes and the silences only.
* `handedAll_eq_found_parts`: An answer given up, and one that comes in parts.
-/

namespace DoorBus

/-! ## New receivers -/

namespace Receiver

/-- A receiver goes on with the bytes that it holds from the first half. -/
theorem found_append (receiver : Receiver) (xs ys : List UInt8) :
    receiver.found (xs ++ ys) = receiver.found xs ++ (receiver.feedAll xs).1.found ys := by
  rw [found, feedAll_append, List.filterMap_append]
  rfl

end Receiver

namespace Session

/-- A session without a flush is a receiver and nothing more. -/
theorem call_feed (session : Session) (byte : UInt8) :
    (session.call (.feed byte)).1.receiver = (session.receiver.feed byte).1 ∧
      (session.call (.feed byte)).2 = Receiver.returned (session.receiver.feed byte).2 := by
  refine ⟨receiver_call_feed session byte, ?_⟩
  unfold call
  rcases hresult : (session.receiver.feed byte).2 with error | frame?
  · simp only [hresult, Receiver.returned]
  · cases frame? with
    | none => simp only [hresult, Receiver.returned]
    | some frame => simp only [hresult, Receiver.returned]

/-- Fed byte by byte, it returns what the receiver finds. What is known of
    sessions then holds of chunks. -/
theorem run_feed (session : Session) (bytes : List UInt8) :
    (session.run (bytes.map .feed)).2 = session.receiver.found bytes := by
  induction bytes generalizing session with
  | nil => rfl
  | cons byte rest ih =>
      rcases call_feed session byte with ⟨hreceiver, hframe⟩
      rw [List.map_cons, run_cons, ih, hreceiver, hframe, Receiver.found_cons]

/-- Frames that a new receiver finds stand in the bytes one behind the other. -/
theorem found_inOrder (bytes : List UInt8) : InOrder bytes (({} : Receiver).found bytes) := by
  -- A receiver that is only fed is a session without a flush.
  have horder := run_inOrder {} (bytes.map .feed) (Covers.refl [])
  have hbytes : (bytes.map Receiver.Call.feed).filterMap Receiver.Call.byte? = bytes := by
    rw [List.filterMap_map]
    exact List.filterMap_some
  rw [run_feed, hbytes] at horder
  exact horder

end Session

namespace Master

/-! ## Frames that a run deals with -/

/-- The frames that the master deals with while bytes arrive. -/
def handedBytes (master : Master) (queue : EventQueue) : List UInt8 → List Frame
  | [] => []
  | byte :: rest =>
    (Receiver.returned (master.receiver.feed byte).2).toList
      ++ (master.hearByte byte queue).1.handedBytes (master.hearByte byte queue).2 rest

/-- The frames that the master deals with in a use. -/
def handed (master : Master) : Use → List Frame
  | .make (.hear now bytes) queue =>
    ({ (master.flushStale now queue).1 with lastHeard := now }).handedBytes
      (master.flushStale now queue).2 bytes
  | .ask _ | .make (.poll _ _) _ | .make (.sent _) _ | .make .unsent _ | .make (.check _) _ => []

/-- The frames that the master deals with in a run. -/
def handedAll (master : Master) : List Use → List Frame
  | [] => []
  | use :: rest => master.handed use ++ (master.used use).handedAll rest

/-- The master after a run. -/
def usedAll (master : Master) (uses : List Use) : Master :=
  uses.foldl used master

/-- The bytes alone say which frames the master deals with, as none of them
    changes the receiver. -/
theorem handedBytes_eq_found (master : Master) (queue : EventQueue) (bytes : List UInt8) :
    master.handedBytes queue bytes = master.receiver.found bytes := by
  induction bytes generalizing master queue with
  | nil => rfl
  | cons byte rest ih =>
      rw [handedBytes, ih, hearByte_receiver, Receiver.found_cons]

/-! ## Dealing with frames -/

/-- The master when frames have come, one after the other, and nothing else. -/
def dealt (master : Master) (frames : List Frame) : Master :=
  frames.foldl (fun master frame => (master.onFrame frame .empty).1) master

/-- What a frame does to the master is a matter of neither the notes nor the
    bytes of the next frame. -/
theorem onFrame_withReceiver (master : Master) (receiver : Receiver) (frame : Frame)
    (queue : EventQueue) :
    (({ master with receiver }).onFrame frame queue).1
      = { (master.onFrame frame .empty).1 with receiver } := by
  rcases master.onFrame_cases frame with ⟨kind, outcome, hphase, hanswer, hdoes⟩ | ⟨hnone, hdoes⟩
  · have hphase' : ({ master with receiver } : Master).phase = .awaiting kind := hphase
    rw [hdoes, onFrame_of_answer hphase' hanswer]
  · have hnone' : ∀ kind, ({ master with receiver } : Master).phase = .awaiting kind →
        kind.answer? frame = none := hnone
    rw [hdoes, onFrame_of_not_answer hnone']

/-- What frames do to the master is not a matter of the receiver either, by
    induction over them. -/
theorem dealt_withReceiver (master : Master) (receiver : Receiver) (frames : List Frame) :
    ({ master with receiver }).dealt frames = { master.dealt frames with receiver } := by
  induction frames generalizing master with
  | nil => rfl
  | cons frame frames ih =>
      rw [dealt, List.foldl_cons, onFrame_withReceiver]
      exact ih (master.onFrame frame .empty).1

/-- The frames that a master deals with are those that its handler is given, as
    all that the bytes leave behind is what these frames do and what the receiver
    keeps. -/
theorem hearBytes_dealt (master : Master) (queue : EventQueue) (bytes : List UInt8) :
    (master.hearBytes queue bytes).1
      = { master.dealt (master.handedBytes queue bytes) with
          receiver := (master.receiver.feedAll bytes).1 } := by
  induction bytes generalizing master queue with
  | nil => rfl
  | cons byte rest ih =>
      let first := (Receiver.returned (master.receiver.feed byte).2).toList
      have hstep : (master.hearByte byte queue).1
          = { master.dealt first with receiver := (master.receiver.feed byte).1 } := by
        simp only [first]
        rw [hearByte_eq]
        cases (master.receiver.feed byte).2 with
        | error error => rfl
        | ok frame? =>
            cases frame? with
            | none => rfl
            | some frame => exact onFrame_withReceiver master _ frame queue
      -- The frames of the rest are dealt with by what the first byte has left.
      have hdealt : ∀ frames, (master.hearByte byte queue).1.dealt frames
          = { master.dealt (first ++ frames) with receiver := (master.receiver.feed byte).1 } := by
        intro frames
        rw [hstep, dealt_withReceiver, dealt, dealt, dealt, List.foldl_append]
      have hrest := ih (master.hearByte byte queue).1 (master.hearByte byte queue).2
      rw [hdealt, hearByte_receiver] at hrest
      rw [Receiver.feedAll_cons]
      exact hrest

/-! ## The ear of a master -/

/-- The part of a master that bytes and silences concern. -/
structure Ear where
  /-- The bytes of an unfinished frame. -/
  receiver : Receiver
  /-- When bytes last arrived. -/
  lastHeard : Millis
  /-- The length of a gap. -/
  frameGap : Millis

/-- The ear of a master. -/
def ear (master : Master) : Ear :=
  ⟨master.receiver, master.lastHeard, master.timing.frameGap⟩

/-- What decides about a cut is left alone when a frame is dealt with. -/
theorem onFrame_ear (master : Master) (frame : Frame) (queue : EventQueue) :
    (master.onFrame frame queue).1.ear = master.ear := by
  rcases master.onFrame_cases frame with ⟨_, _, _, _, hdoes⟩ | ⟨_, hdoes⟩
  · rw [hdoes]
    rfl
  · rw [hdoes]
    rfl

theorem hearByte_ear (master : Master) (byte : UInt8) (queue : EventQueue) :
    (master.hearByte byte queue).1.ear
      = { master.ear with receiver := (master.receiver.feed byte).1 } := by
  rw [hearByte_eq]
  cases (master.receiver.feed byte).2 with
  | error error => rfl
  | ok frame? =>
      cases frame? with
      | none => rfl
      | some frame => exact onFrame_ear (master.fed byte) frame queue

/-- Bytes change no more of it than the receiver. -/
theorem hearBytes_ear (master : Master) (queue : EventQueue) (bytes : List UInt8) :
    (master.hearBytes queue bytes).1.ear
      = { master.ear with receiver := (master.receiver.feedAll bytes).1 } := by
  induction bytes generalizing master queue with
  | nil => rfl
  | cons byte rest ih =>
      have hstep : master.hearBytes queue (byte :: rest)
          = (master.hearByte byte queue).1.hearBytes (master.hearByte byte queue).2 rest := rfl
      rw [hstep, ih, hearByte_ear, hearByte_receiver, Receiver.feedAll_cons]

theorem flushStale_ear (master : Master) (now : Millis) (queue : EventQueue) :
    (master.flushStale now queue).1.ear = { master.ear with receiver := master.refreshed now } := by
  by_cases hfresh : master.IsFresh now
  · rw [refreshed, flushStale_of_fresh hfresh, flushStale_of_fresh hfresh]
    rfl
  · rw [refreshed, flushStale_of_stale hfresh, flushStale_of_stale hfresh]
    rfl

/-- A long silence leaves a new receiver, whether or not there were bytes to
    be given up. -/
theorem refreshed_eq (master : Master) (now : Millis) :
    master.refreshed now
      = if master.timing.frameGap ≤ Millis.elapsed master.lastHeard now then {}
        else master.receiver := by
  by_cases hlong : master.timing.frameGap ≤ Millis.elapsed master.lastHeard now
  · rw [if_pos hlong, refreshed]
    by_cases hfresh : master.IsFresh now
    · rw [flushStale_of_fresh hfresh]
      -- It is too late to be fresh by time, so there are no bytes.
      rcases hfresh with hnone | hearly
      · exact congrArg Receiver.mk (List.length_eq_zero_iff.mp hnone)
      · exact absurd hearly (UInt32.not_lt.mpr hlong)
    · rw [flushStale_of_stale hfresh]
  · rw [if_neg hlong, refreshed, flushStale_of_fresh (.inr (UInt32.not_le.mp hlong))]

theorem resolveFailure_ear (master : Master) (step : PhaseStep) (queue : EventQueue) :
    ((master.move step).resolveFailure queue).1.ear = master.ear := by
  rw [resolveFailure_eq]
  rfl

/-- After a chunk it is the receiver of the piece that the chunk belongs to,
    with the time of the chunk. -/
theorem hear_ear (master : Master) (now : Millis) {bytes : List UInt8} (hne : bytes ≠ [])
    (queue : EventQueue) :
    (master.hear now bytes queue).1.ear
      = ⟨((master.refreshed now).feedAll bytes).1, now, master.timing.frameGap⟩ := by
  have hempty : ¬bytes.isEmpty = true := fun h => hne (List.isEmpty_iff.mp h)
  have hflush := flushStale_ear master now queue
  simp only [ear, Ear.mk.injEq] at hflush
  rw [hear, if_neg hempty]
  simp only []
  rw [hearBytes_ear, ear]
  simp only [hflush.1, hflush.2.2]

/-- Giving up bytes only concerns the receiver, so a chunk leaves behind what its
    frames do, what the receiver keeps, and the time. -/
theorem hear_dealt (master : Master) (now : Millis) {bytes : List UInt8} (hne : bytes ≠ [])
    (queue : EventQueue) :
    (master.hear now bytes queue).1
      = { ({ master with lastHeard := now }).dealt
            (master.handed (.make (.hear now bytes) queue)) with
          receiver := ((master.refreshed now).feedAll bytes).1 } := by
  let flushed := { (master.flushStale now queue).1 with lastHeard := now }
  let frames := master.handed (.make (.hear now bytes) queue)
  have hflushed : flushed
      = { ({ master with lastHeard := now }) with receiver := master.refreshed now } := by
    simp only [flushed]
    by_cases hfresh : master.IsFresh now
    · rw [refreshed, flushStale_of_fresh hfresh, flushStale_of_fresh hfresh]
    · rw [refreshed, flushStale_of_stale hfresh, flushStale_of_stale hfresh]
  have hdealt : flushed.dealt frames
      = { ({ master with lastHeard := now }).dealt frames with
          receiver := master.refreshed now } := by
    rw [hflushed]
    exact dealt_withReceiver _ _ frames
  have hreceiver : flushed.receiver = master.refreshed now := by
    rw [hflushed]
  rw [hear, if_neg fun hempty => hne (List.isEmpty_iff.mp hempty)]
  refine (hearBytes_dealt flushed (master.flushStale now queue).2 bytes).trans ?_
  rw [hreceiver]
  exact congrArg (fun dealt : Master =>
    { dealt with receiver := ((master.refreshed now).feedAll bytes).1 }) hdealt

/-- A look at the clock leaves the time of the last chunk. The next chunk is
    still measured against it. -/
theorem checkTimeouts_ear (master : Master) (now : Millis) (queue : EventQueue) :
    (master.checkTimeouts now queue).1.ear
      = { master.ear with receiver := master.refreshed now } := by
  rw [checkTimeouts, ← flushStale_ear master now queue]
  by_cases hlate : (master.flushStale now queue).1.isOverdue now = true
  · simp only [if_pos hlate]
    exact resolveFailure_ear _ _ _
  · simp only [if_neg hlate]

theorem poll_ear (master : Master) (now : Millis) (action : ActionCode) (queue : EventQueue) :
    (master.call (.poll now action) queue).1.ear = master.ear := by
  by_cases hdue : master.isDue now = true
  · rw [(poll_of_due hdue action).2]
    rfl
  · rw [(poll_of_not_due hdue action).2]

end Master

/-! ## Tapes -/

/-- What the line brought in a run, cut at silences. -/
structure Tape where
  /-- The pieces in front of the last cut. -/
  before : List (List UInt8) := []
  /-- The bytes behind it. -/
  current : List UInt8 := []
  /-- When the last chunk came. -/
  time : Millis := 0
  /-- Whether someone has noticed since that no byte has come for a gap. -/
  silent : Bool := false
  deriving DecidableEq

namespace Tape

open Master (Use)

/-- Whether no byte has come for a gap by now, or someone noticed so
    before. -/
def isSilent (gap : Millis) (tape : Tape) (now : Millis) : Bool :=
  tape.silent || gap ≤ Millis.elapsed tape.time now

/-- The tape after a use. Only a chunk that is not empty brings anything, and
    the first one of all has nothing to be cut off from. -/
def take (gap : Millis) (tape : Tape) : Use → Tape
  | .make (.hear now bytes) _ =>
    if bytes.isEmpty then
      tape
    else if tape.current ≠ [] ∧ tape.isSilent gap now = true then
      ⟨tape.before ++ [tape.current], bytes, now, false⟩
    else
      ⟨tape.before, tape.current ++ bytes, now, false⟩
  | .make (.check now) _ => { tape with silent := tape.isSilent gap now }
  | .ask _ | .make (.poll _ _) _ | .make (.sent _) _ | .make .unsent _ => tape

/-- The tape of a run. -/
def ofUses (gap : Millis) (uses : List Use) : Tape :=
  uses.foldl (take gap) {}

/-- The pieces between the cuts. -/
def pieces (tape : Tape) : List (List UInt8) :=
  tape.before ++ [tape.current]

/-- The frames that a new receiver finds in each piece. -/
def frames (tape : Tape) : List Frame :=
  tape.pieces.flatMap ({} : Receiver).found

theorem flatten_pieces (tape : Tape) :
    tape.pieces.flatten = tape.before.flatten ++ tape.current := by
  rw [pieces, List.flatten_append, List.flatten_singleton]

theorem frames_eq (tape : Tape) :
    tape.frames
      = tape.before.flatMap ({} : Receiver).found ++ ({} : Receiver).found tape.current := by
  rw [frames, pieces, List.flatMap_append, List.flatMap_singleton]

end Tape

/-- The bytes that a use brings. -/
def Master.Use.bytes : Use → List UInt8
  | make (.hear _ bytes) _ => bytes
  | ask _ | make (.poll _ _) _ | make (.sent _) _ | make .unsent _ | make (.check _) _ => []

namespace Tape

open Master (Use)

/-- The pieces hold all bytes that came, in order. -/
theorem flatten_take (gap : Millis) (tape : Tape) (use : Use) :
    (tape.take gap use).pieces.flatten = tape.pieces.flatten ++ use.bytes := by
  rw [flatten_pieces, flatten_pieces]
  cases use with
  | ask now => exact (List.append_nil _).symm
  | make call queue =>
      cases call with
      | hear now bytes =>
          rw [take, Use.bytes]
          by_cases hempty : bytes.isEmpty = true
          · rw [if_pos hempty, List.isEmpty_iff.mp hempty, List.append_nil]
          · rw [if_neg hempty]
            by_cases hcut : tape.current ≠ [] ∧ tape.isSilent gap now = true
            · rw [if_pos hcut, List.flatten_append, List.flatten_singleton]
            · rw [if_neg hcut, List.append_assoc]
      | poll now action => exact (List.append_nil _).symm
      | sent now => exact (List.append_nil _).symm
      | unsent => exact (List.append_nil _).symm
      | check now => exact (List.append_nil _).symm

/-- The cuts lose no byte and bring none into another order. -/
theorem flatten_ofUses (gap : Millis) (uses : List Use) :
    (ofUses gap uses).pieces.flatten = uses.flatMap Use.bytes := by
  -- From any tape on, as the uses go on from what the ones before have left.
  have hrun : ∀ tape : Tape,
      (uses.foldl (take gap) tape).pieces.flatten
        = tape.pieces.flatten ++ uses.flatMap Use.bytes := by
    intro tape
    induction uses generalizing tape with
    | nil => exact (List.append_nil _).symm
    | cons use uses ih =>
        rw [List.foldl_cons, ih, flatten_take, List.flatMap_cons, List.append_assoc]
  exact hrun {}

end Tape

namespace Master

/-! ## Master and tape -/

/-- The master holds of a tape what a receiver keeps of its last piece, and
    when the last chunk came. -/
structure Matches (gap : Millis) (tape : Tape) (master : Master) : Prop where
  ear_eq : master.ear
    = ⟨if tape.silent then {} else (({} : Receiver).feedAll tape.current).1, tape.time, gap⟩

section

variable {gap : Millis} {tape : Tape} {master : Master}

theorem matches_new (timing : Timing) : Matches timing.frameGap {} (new timing) := ⟨rfl⟩

theorem refreshed_of_matches (h : Matches gap tape master) (now : Millis) :
    master.refreshed now
      = if tape.isSilent gap now then {} else (({} : Receiver).feedAll tape.current).1 := by
  have hear := h.ear_eq
  simp only [ear, Ear.mk.injEq] at hear
  rw [refreshed_eq, hear.1, hear.2.1, hear.2.2, Tape.isSilent]
  -- The two ways to a cut are the two sides of the disjunction.
  cases tape.silent with
  | true => simp only [if_true, Bool.true_or, ite_self]
  | false => simp only [Bool.false_or, decide_eq_true_eq, Bool.false_eq_true, if_false]

/-- A chunk behind a cut comes to a new receiver, and any other one to the
    receiver that the piece has left. -/
theorem refreshed_cases (h : Matches gap tape master) (now : Millis) :
    (tape.current ≠ [] ∧ tape.isSilent gap now = true → master.refreshed now = {}) ∧
    (¬(tape.current ≠ [] ∧ tape.isSilent gap now = true) →
      master.refreshed now = (({} : Receiver).feedAll tape.current).1) := by
  rw [refreshed_of_matches h now]
  refine ⟨fun hcut => if_pos hcut.2, fun hcut => ?_⟩
  by_cases hsilent : tape.isSilent gap now = true
  · -- Nothing has come yet, so the receiver is a new one either way.
    have hnil : tape.current = [] := by
      by_contra hne
      exact hcut ⟨hne, hsilent⟩
    rw [if_pos hsilent, hnil]
    rfl
  · rw [if_neg hsilent]

theorem matches_take (h : Matches gap tape master) (use : Use) :
    Matches gap (tape.take gap use) (master.used use) := by
  have hgap : master.timing.frameGap = gap := congrArg Ear.frameGap h.ear_eq
  refine ⟨?_⟩
  cases use with
  | ask now => exact h.ear_eq
  | make call queue =>
      cases call with
      | poll now action => exact (poll_ear master now action queue).trans h.ear_eq
      | sent now => exact h.ear_eq
      | unsent => exact (resolveFailure_ear master _ queue).trans h.ear_eq
      | check now =>
          -- A look at the clock may give up the bytes long before the next chunk comes.
          have hcheck := checkTimeouts_ear master now queue
          rw [refreshed_of_matches h now, h.ear_eq] at hcheck
          exact hcheck
      | hear now bytes =>
          rw [used, call, Tape.take]
          by_cases hempty : bytes.isEmpty = true
          · rw [hear, if_pos hempty, if_pos hempty]
            exact h.ear_eq
          · have hne : bytes ≠ [] := fun hnil => hempty (List.isEmpty_iff.mpr hnil)
            rcases refreshed_cases h now with ⟨hfirst, hlater⟩
            -- Tape and master cut in front of the chunk, or neither of them does.
            rw [hear_ear master now hne, if_neg hempty, hgap]
            by_cases hcut : tape.current ≠ [] ∧ tape.isSilent gap now = true
            · rw [if_pos hcut, hfirst hcut]
              rfl
            · rw [if_neg hcut, hlater hcut, Receiver.feedAll_append]
              rfl

/-- A chunk is dealt with as what the receiver finds in it that the flush has
    left. -/
theorem handed_hear (master : Master) (now : Millis) (bytes : List UInt8) (queue : EventQueue) :
    master.handed (.make (.hear now bytes) queue) = (master.refreshed now).found bytes := by
  have hflush := congrArg Ear.receiver (flushStale_ear master now queue)
  rw [handed, handedBytes_eq_found]
  exact congrArg (Receiver.found · bytes) hflush

/-- The frames of a use are those that it adds to the tape. -/
theorem handed_take (h : Matches gap tape master) (use : Use) :
    tape.frames ++ master.handed use = (tape.take gap use).frames := by
  cases use with
  | ask now => exact List.append_nil _
  | make call queue =>
      cases call with
      | poll now action => exact List.append_nil _
      | sent now => exact List.append_nil _
      | unsent => exact List.append_nil _
      | check now => exact List.append_nil _
      | hear now bytes =>
          rw [handed_hear, Tape.take]
          by_cases hempty : bytes.isEmpty = true
          · rw [if_pos hempty, List.isEmpty_iff.mp hempty]
            exact List.append_nil _
          · rcases refreshed_cases h now with ⟨hfirst, hlater⟩
            rw [if_neg hempty, Tape.frames_eq, Tape.frames_eq]
            by_cases hcut : tape.current ≠ [] ∧ tape.isSilent gap now = true
            -- Behind a cut the piece is new, and so is the receiver.
            · rw [if_pos hcut, hfirst hcut, List.flatMap_append, List.flatMap_singleton]
            · rw [if_neg hcut, hlater hcut, Receiver.found_append, List.append_assoc]

end

/-- The frames of a run, by induction on the uses with the tape in step. -/
theorem handedAll_take {gap : Millis} {tape : Tape} {master : Master}
    (h : Matches gap tape master) (uses : List Use) :
    tape.frames ++ master.handedAll uses = (uses.foldl (Tape.take gap) tape).frames ∧
      Matches gap (uses.foldl (Tape.take gap) tape) (master.usedAll uses) := by
  induction uses generalizing tape master with
  | nil => exact ⟨List.append_nil _, h⟩
  | cons use uses ih =>
      rcases ih (matches_take h use) with ⟨hframes, hmatches⟩
      refine ⟨?_, hmatches⟩
      rw [handedAll, ← List.append_assoc, handed_take h use]
      exact hframes

end Master

/-! ## Chunks in parts -/

/-- Bytes that come at once. -/
structure Chunk where
  /-- When they come. -/
  time : Millis
  /-- The bytes. -/
  bytes : List UInt8

/-- The bytes of some chunks. -/
def Chunk.join (chunks : List Chunk) : List UInt8 :=
  chunks.flatMap Chunk.bytes

namespace Master

/-- Chunks, one after the other, with the frames that the master deals with. -/
def hearEach (master : Master) (queue : EventQueue) :
    List Chunk → (Master × EventQueue) × List Frame
  | [] => ((master, queue), [])
  | chunk :: rest =>
    let heard := master.hear chunk.time chunk.bytes queue
    let (last, frames) := heard.1.hearEach heard.2 rest
    (last, master.handed (.make (.hear chunk.time chunk.bytes) queue) ++ frames)

/-- Bytes may be heard in two parts. -/
theorem hearBytes_append (master : Master) (queue : EventQueue) (xs ys : List UInt8) :
    master.hearBytes queue (xs ++ ys)
      = (master.hearBytes queue xs).1.hearBytes (master.hearBytes queue xs).2 ys := by
  induction xs generalizing master queue with
  | nil => rfl
  | cons byte xs ih => exact ih _ _

/-- Bytes do not care when the ones in front of them came. -/
theorem hearBytes_lastHeard (master : Master) (time : Millis) (queue : EventQueue)
    (bytes : List UInt8) :
    ({ master with lastHeard := time }).hearBytes queue bytes
      = ({ (master.hearBytes queue bytes).1 with lastHeard := time },
        (master.hearBytes queue bytes).2) := by
  -- The other two readings are put back as they are, since all three change together.
  have htimeless := hearBytes_timeless bytes
  rcases readings_of_timeless htimeless master queue with ⟨hpoll, hsent, _⟩
  have hsame := htimeless.withTimes_eq master master.lastPoll master.sentAt time queue
  rw [withTimes, withTimes, ← hpoll, ← hsent] at hsame
  rw [← hsame, hpoll, hsent]

theorem hear_of_ne_nil (master : Master) (now : Millis) {bytes : List UInt8} (hne : bytes ≠ [])
    (queue : EventQueue) :
    master.hear now bytes queue
      = ({ ((master.flushStale now queue).1.hearBytes (master.flushStale now queue).2 bytes).1 with
          lastHeard := now },
        ((master.flushStale now queue).1.hearBytes (master.flushStale now queue).2 bytes).2) := by
  rw [hear, if_neg fun h => hne (List.isEmpty_iff.mp h)]
  exact hearBytes_lastHeard _ now _ bytes

/-- When two times agree on the silence, the flush does not tell them apart. -/
theorem flushStale_congr {master : Master} {first now : Millis}
    (h : master.IsFresh first ↔ master.IsFresh now) (queue : EventQueue) :
    master.flushStale first queue = master.flushStale now queue := by
  by_cases hfresh : master.IsFresh now
  · rw [flushStale_of_fresh hfresh, flushStale_of_fresh (h.mpr hfresh)]
  · rw [flushStale_of_stale hfresh, flushStale_of_stale (mt h.mp hfresh)]

/-- Chunks that come less than a gap behind each other are heard as the run of
    their bytes. -/
theorem hearEach_tail {rest : List Chunk} (hne : ∀ chunk ∈ rest, chunk.bytes ≠ [])
    (master : Master) (queue : EventQueue) (time : Millis)
    (htimes : (time :: rest.map Chunk.time).IsChain fun earlier later =>
      Millis.elapsed earlier later < master.timing.frameGap) :
    ({ master with lastHeard := time }).hearEach queue rest
      = (({ (master.hearBytes queue (Chunk.join rest)).1 with
            lastHeard := (rest.map Chunk.time).getLastD time },
          (master.hearBytes queue (Chunk.join rest)).2),
        master.receiver.found (Chunk.join rest)) := by
  induction rest generalizing master queue time with
  | nil => rfl
  | cons chunk rest ih =>
      rcases List.isChain_cons_cons.mp htimes with ⟨hsoon, hlater⟩
      have hnow : chunk.bytes ≠ [] := hne chunk List.mem_cons_self
      have hfresh : ({ master with lastHeard := time } : Master).IsFresh chunk.time := .inr hsoon
      -- The part is too early for a cut, so it goes on where the bytes before it stopped.
      have hheard : ({ master with lastHeard := time }).hear chunk.time chunk.bytes queue
          = ({ (master.hearBytes queue chunk.bytes).1 with lastHeard := chunk.time },
            (master.hearBytes queue chunk.bytes).2) := by
        rw [hear_of_ne_nil _ chunk.time hnow, flushStale_of_fresh hfresh, hearBytes_lastHeard]
      have hfound : ({ master with lastHeard := time }).handed
          (.make (.hear chunk.time chunk.bytes) queue) = master.receiver.found chunk.bytes := by
        rw [handed_hear, refreshed, flushStale_of_fresh hfresh]
      have hear := hearBytes_ear master queue chunk.bytes
      simp only [ear, Ear.mk.injEq] at hear
      have hrest := ih (fun other hother => hne other (List.mem_cons_of_mem chunk hother))
        (master.hearBytes queue chunk.bytes).1 (master.hearBytes queue chunk.bytes).2 chunk.time
        (by rw [hear.2.2]; exact hlater)
      have hjoin : Chunk.join (chunk :: rest) = chunk.bytes ++ Chunk.join rest :=
        List.flatMap_cons
      rw [hearEach]
      simp only [hheard, hfound, hrest]
      rw [hjoin, hearBytes_append, Receiver.found_append, List.map_cons, List.getLastD_cons,
        hear.1]

/-- A chunk may come in parts, none of which is empty and all but the first
    of which come in time. -/
theorem hearEach_eq_hear (master : Master) (now : Millis) (queue : EventQueue) {first : Chunk}
    {rest : List Chunk} (hne : ∀ chunk ∈ first :: rest, chunk.bytes ≠ [])
    (hcut : master.IsFresh first.time ↔ master.IsFresh now)
    (htimes : ((first :: rest).map Chunk.time).IsChain fun earlier later =>
      Millis.elapsed earlier later < master.timing.frameGap) :
    let whole := master.hear now (Chunk.join (first :: rest)) queue
    master.hearEach queue (first :: rest)
      = (({ whole.1 with lastHeard := (rest.map Chunk.time).getLastD first.time }, whole.2),
        master.handed (.make (.hear now (Chunk.join (first :: rest))) queue)) := by
  intro whole
  have hfirst : first.bytes ≠ [] := hne first List.mem_cons_self
  have hrest : ∀ chunk ∈ rest, chunk.bytes ≠ [] := by
    intro chunk hchunk
    exact hne chunk (List.mem_cons_of_mem first hchunk)
  have hjoin : Chunk.join (first :: rest) = first.bytes ++ Chunk.join rest := List.flatMap_cons
  have hwhole : Chunk.join (first :: rest) ≠ [] := by
    rw [hjoin]
    exact List.append_ne_nil_of_left_ne_nil hfirst _
  have hflush := flushStale_congr hcut queue
  have hrefreshed : master.refreshed first.time = master.refreshed now :=
    congrArg (fun flushed => flushed.1.receiver) (flushStale_congr hcut .empty)
  have hear := hear_ear master first.time hfirst queue
  simp only [ear, Ear.mk.injEq] at hear
  -- Behind the first part the others are the tail of one run of bytes.
  have htail := hearEach_tail hrest (master.hear first.time first.bytes queue).1
    (master.hear first.time first.bytes queue).2 first.time (by rw [hear.2.2]; exact htimes)
  have hsame : { (master.hear first.time first.bytes queue).1 with lastHeard := first.time }
      = (master.hear first.time first.bytes queue).1 :=
    congrArg (fun time => { (master.hear first.time first.bytes queue).1 with lastHeard := time })
      hear.2.1.symm
  rw [hsame] at htail
  have hstep : master.hearEach queue (first :: rest)
      = (((master.hear first.time first.bytes queue).1.hearEach
            (master.hear first.time first.bytes queue).2 rest).1,
          master.handed (.make (.hear first.time first.bytes) queue)
            ++ ((master.hear first.time first.bytes queue).1.hearEach
              (master.hear first.time first.bytes queue).2 rest).2) := rfl
  rw [hstep, htail, hear.1, handed_hear, handed_hear, hrefreshed, hjoin, Receiver.found_append]
  simp only [whole, hjoin]
  rw [hear_of_ne_nil master first.time hfirst, hflush, hear_of_ne_nil master now (hjoin ▸ hwhole),
    hearBytes_append, hearBytes_lastHeard]

/-- Frames depend on the bytes and the silences, and not on the chunks. Take
    any run of a new master with any timing, and its tape.

    The frames that the run deals with are, in order, those that a new
    receiver finds in each piece. The pieces make up all bytes that came. The
    frames found in a piece stand in that piece, one behind the other, so none
    reaches over a cut. Of the last piece the master holds what the receiver
    keeps, or nothing if a silence has been noticed behind it. The frames of a
    chunk are those that the master really deals with: the chunk leaves behind
    what they do to the master, and beside it only bytes and the time.

    Wherever the run stands, a chunk may come in parts, none of which is empty.
    If there is a cut in front of the first part exactly if there is one in
    front of the chunk, and each other part comes less than a gap behind the
    one before it, then the frames and the notes are the same, and the master
    is the same but for the time of the last chunk. -/
theorem handedAll_eq_found (timing : Timing) (uses : List Use) :
    let tape := Tape.ofUses timing.frameGap uses
    let master := (new timing).usedAll uses
    (new timing).handedAll uses = tape.pieces.flatMap ({} : Receiver).found ∧
    tape.pieces.flatten = uses.flatMap Use.bytes ∧
    (∀ piece ∈ tape.pieces, InOrder piece (({} : Receiver).found piece)) ∧
    master.receiver
      = (if tape.silent then {} else (({} : Receiver).feedAll tape.current).1) ∧
    (∀ (now : Millis) (bytes : List UInt8) (queue : EventQueue), bytes ≠ [] →
      (master.hear now bytes queue).1
        = { ({ master with lastHeard := now }).dealt
              (master.handed (.make (.hear now bytes) queue)) with
            receiver := ((master.refreshed now).feedAll bytes).1 }) ∧
    ∀ (now : Millis) (queue : EventQueue) (first : Chunk) (rest : List Chunk),
      (∀ chunk ∈ first :: rest, chunk.bytes ≠ []) →
      (master.IsFresh first.time ↔ master.IsFresh now) →
      ((first :: rest).map Chunk.time).IsChain (fun earlier later =>
        Millis.elapsed earlier later < timing.frameGap) →
      let whole := master.hear now (Chunk.join (first :: rest)) queue
      master.hearEach queue (first :: rest)
        = (({ whole.1 with lastHeard := (rest.map Chunk.time).getLastD first.time }, whole.2),
          master.handed (.make (.hear now (Chunk.join (first :: rest))) queue)) := by
  intro tape master
  rcases handedAll_take (matches_new timing) uses with ⟨hframes, hmatches⟩
  have hgap : master.timing.frameGap = timing.frameGap := congrArg Ear.frameGap hmatches.ear_eq
  refine ⟨hframes, Tape.flatten_ofUses timing.frameGap uses,
    fun piece _ => Session.found_inOrder piece, congrArg Ear.receiver hmatches.ear_eq,
    fun now bytes queue hne => hear_dealt master now hne queue, ?_⟩
  intro now queue first rest hne hcut htimes
  -- The gap that the master measures is the one that the tape is cut by.
  rw [← hgap] at htimes
  exact hearEach_eq_hear master now queue hne hcut htimes

/-- Two bytes of an answer are given up in a silence. The answer comes again
    behind it in two parts, and is found. -/
theorem handedAll_eq_found_parts :
    let uses : List Use := [.make (.poll 1000 ⟨0⟩) .empty, .make (.sent 1002) .empty,
      .make (.hear 1003 [0x02, 0x17]) .empty, .make (.check 1050) .empty]
    let master := (new (.ofMode .highPerformance)).usedAll uses
    let parts : List Chunk := [⟨1051, [0x02, 0x17, 0x0A, 0x00, 0x00]⟩,
      ⟨1052, [0x00, 0x05, 0x04, 0x30, 0x10, 0xFF, 0xA8, 0x45, 0x8F, 0x06]⟩]
    (new (.ofMode .highPerformance)).handedAll uses = [] ∧
      (master.hearEach .empty parts).2.map Frame.payload
        = [[0x0A, 0x00, 0x00, 0x00, 0x05, 0x04, 0x30, 0x10, 0xFF, 0xA8, 0x45]] ∧
      (master.hearEach .empty parts).1.1.phase = .idle := by
  intro uses master parts
  rcases handedAll_eq_found (.ofMode .highPerformance) uses with ⟨hframes, _, _, _, _, hparts⟩
  have heach := hparts 1051 .empty ⟨1051, [0x02, 0x17, 0x0A, 0x00, 0x00]⟩
    [⟨1052, [0x00, 0x05, 0x04, 0x30, 0x10, 0xFF, 0xA8, 0x45, 0x8F, 0x06]⟩]
    (by decide) Iff.rfl (by decide)
  refine ⟨?_, ?_, ?_⟩
  · rw [hframes]
    decide +kernel
  · rw [heach]
    decide +kernel
  · rw [heach]
    decide +kernel

end Master

end DoorBus

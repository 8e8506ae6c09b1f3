import DoorBus.Proofs.Wire.Coverage

/-!
# The Receiver Recognises Frames Exactly

A receiver may be fed, flushed and reset in any order. A `Session` follows it
through such calls and remembers what the receiver itself forgets: all bytes
that it was fed since its buffer was last emptied on purpose, which is at the
start, by a reset or a flush, or because a frame was found.

Seen from there a receiver is simple. A byte returns a frame exactly if some
suffix of what was heard, with this byte, is one, and then it returns the
longest. Nothing is made up and nothing is missed, whichever bytes the buffer
has given up in between.

## Main definitions

* `Receiver.Call`: What can be done with a receiver.
* `Session`: A receiver with what it has heard.
* `Session.call`, `Session.run`: Calls, with the frames that they return.
* `InOrder`: Frames that stand in some bytes one behind the other.

## Theorems

* `call_covers`, `run_covers`: What is kept covers what was heard, always.
* `inOrder_append`: More bytes in front leave the order alone.
* `run_inOrder`: Frames come from disjoint stretches of the input.
* `session_recognises`: What a receiver returns, after any calls.
-/

namespace DoorBus

/-- What can be done with a receiver. -/
inductive Receiver.Call
  /-- A byte arrives. -/
  | feed (byte : UInt8)
  /-- The bus has been silent. -/
  | flush
  /-- Everything is given up. -/
  | reset
  deriving DecidableEq, Repr

/-- The byte that a call brings. -/
def Receiver.Call.byte? : Call → Option UInt8
  | feed byte => some byte
  | flush | reset => none

/-- A receiver, and the bytes it was fed since its buffer was emptied. -/
structure Session where
  /-- The receiver. -/
  receiver : Receiver := {}
  /-- What it was fed, oldest byte first. -/
  heard : List UInt8 := []
  deriving DecidableEq, Repr

namespace Session

open Receiver (Call Longest)

/-- A call, with the frame that it returns. -/
def call (session : Session) : Call → Session × Option Frame
  | .feed byte =>
    let (receiver, result) := session.receiver.feed byte
    match result with
    | .ok (some frame) => (⟨receiver, []⟩, some frame)
    | _ => (⟨receiver, session.heard ++ [byte]⟩, none)
  | .flush => (⟨session.receiver.flush.1, []⟩, none)
  | .reset => (⟨session.receiver.reset, []⟩, none)

/-- A sequence of calls, with the frames that they return. -/
def run (session : Session) : List Call → Session × List Frame
  | [] => (session, [])
  | call :: calls =>
    let (session, frame) := session.call call
    let (session, frames) := session.run calls
    (session, frame.toList ++ frames)

theorem run_cons (session : Session) (call : Call) (calls : List Call) :
    session.run (call :: calls) = (((session.call call).1.run calls).1,
      (session.call call).2.toList ++ ((session.call call).1.run calls).2) := rfl

/-- A flush empties the receiver, whether or not there is something to report. -/
theorem flush_eq (receiver : Receiver) : receiver.flush.1 = {} := by
  unfold Receiver.flush
  by_cases h : receiver.buffer.isEmpty
  · rw [if_pos h]
    have hnil : receiver.buffer = [] := List.isEmpty_iff.mp h
    rw [← hnil]
  · rw [if_neg h]

/-- With a frame everything heard is used up. -/
theorem call_feed_of_returns {session : Session} {byte : UInt8} {frame : Frame}
    (h : (session.receiver.feed byte).2 = .ok (some frame)) :
    session.call (.feed byte) = ({}, some frame) := by
  simp only [call, h, Receiver.feed_fst_of_returns h]

/-- Without one the byte is added to what was heard, also when it is reported as
    a failure. -/
theorem call_feed_of_none {session : Session} {byte : UInt8}
    (h : ∀ frame, (session.receiver.feed byte).2 ≠ .ok (some frame)) :
    session.call (.feed byte) =
      (⟨(session.receiver.feed byte).1, session.heard ++ [byte]⟩, none) := by
  unfold call
  cases hresult : (session.receiver.feed byte).2 with
  | error e => simp only [hresult]
  | ok frame? =>
      cases frame? with
      | none => simp only [hresult]
      | some frame => exact absurd hresult (h frame)

/-- What is noted of a session has no part in what its receiver does. -/
theorem receiver_call_feed (session : Session) (byte : UInt8) :
    (session.call (.feed byte)).1.receiver = (session.receiver.feed byte).1 := by
  by_cases hreturns : ∃ frame, (session.receiver.feed byte).2 = .ok (some frame)
  · rcases hreturns with ⟨frame, hframe⟩
    rw [call_feed_of_returns hframe, Receiver.feed_fst_of_returns hframe]
  · rw [not_exists] at hreturns
    rw [call_feed_of_none hreturns]

/-- What the receiver keeps may stand for what it has heard. -/
def Covered (session : Session) : Prop :=
  Covers session.receiver.buffer session.heard

/-- Each call keeps the cover. A frame, a flush and a reset start it anew. -/
theorem call_covers (session : Session) (call : Call) (h : session.Covered) :
    (session.call call).1.Covered := by
  cases call with
  | feed byte =>
      by_cases hreturns : ∃ frame, (session.receiver.feed byte).2 = .ok (some frame)
      · rcases hreturns with ⟨frame, hframe⟩
        rw [call_feed_of_returns hframe]
        exact Covers.refl []
      · rw [not_exists] at hreturns
        rw [call_feed_of_none hreturns]
        exact Receiver.covers_feed h byte hreturns
  | flush =>
      rw [Covered, Session.call, flush_eq]
      exact Covers.refl []
  | reset => exact Covers.refl []

/-- The invariant of a session, by induction over its calls. -/
theorem run_covers (session : Session) (calls : List Call) (h : session.Covered) :
    (session.run calls).1.Covered := by
  induction calls generalizing session with
  | nil => exact h
  | cons call calls ih => exact ih _ (call_covers session call h)

end Session

/-! ## The order of frames -/

/-- Frames that stand in some bytes one behind the other, with any bytes
    between them. -/
inductive InOrder : List UInt8 → List Frame → Prop
  /-- Bytes of no frame. -/
  | done (rest : List UInt8) : InOrder rest []
  /-- A frame, behind bytes of none. -/
  | next (gap rest : List UInt8) (frame : Frame) (frames : List Frame) :
    InOrder rest frames → InOrder (gap ++ frame.toBytes ++ rest) (frame :: frames)

/-- Bytes in front of the frames are a gap, or part of the first one. -/
theorem inOrder_append {bytes : List UInt8} {frames : List Frame} (front : List UInt8)
    (h : InOrder bytes frames) : InOrder (front ++ bytes) frames := by
  cases h with
  | done => exact .done _
  | next gap rest frame frames hrest =>
      rw [← List.append_assoc, ← List.append_assoc]
      exact .next (front ++ gap) rest frame frames hrest

namespace Session

open Receiver (Call Longest)

/-- Frames come from disjoint stretches of the input, in the order in which
    they are returned. What has been heard is the part of the input that no
    frame has used. -/
theorem run_inOrder (session : Session) (calls : List Call) (h : session.Covered) :
    InOrder (session.heard ++ calls.filterMap Call.byte?) (session.run calls).2 := by
  -- What was heard waits in front of the bytes to come until a frame takes it.
  induction calls generalizing session with
  | nil => exact .done _
  | cons call calls ih =>
      have hrest := ih _ (call_covers session call h)
      rw [run_cons]
      cases call with
      | feed byte =>
          rw [List.filterMap_cons_some (by rfl)]
          by_cases hreturns : ∃ frame, (session.receiver.feed byte).2 = .ok (some frame)
          · rcases hreturns with ⟨frame, hframe⟩
            rw [call_feed_of_returns hframe] at hrest ⊢
            -- The frame is a suffix of what was heard, up to this byte.
            rcases (Receiver.feed_returns_iff h byte frame).mp hframe with
              ⟨suffix, ⟨gap, hgap⟩, hfills, _⟩
            rw [List.append_cons, ← hgap, ← hfills.toBytes_eq]
            exact .next gap _ frame _ hrest
          · rw [not_exists] at hreturns
            rw [call_feed_of_none hreturns] at hrest ⊢
            rwa [List.append_assoc, List.singleton_append] at hrest
      -- What is given up is only a gap.
      | flush => exact inOrder_append session.heard hrest
      | reset => exact inOrder_append session.heard hrest

/-- What a receiver returns, after any calls on a new one. A byte returns a
    frame exactly if some suffix of what was heard is one, and then the
    longest. Frames returned come from disjoint stretches of the input. Of the
    bytes heard the receiver keeps the end, and what it has given up starts no
    frame, whatever follows. And wherever it stands, it cannot be fed a frame
    that it may receive without returning some frame. -/
theorem session_recognises (calls : List Call) :
    let session := (run {} calls).1
    (∀ byte frame, (session.receiver.feed byte).2 = .ok (some frame) ↔
      Longest (session.heard ++ [byte]) frame) ∧
    (∀ byte, (∃ frame, (session.receiver.feed byte).2 = .ok (some frame)) ↔
      ∃ suffix frame, suffix <:+ session.heard ++ [byte] ∧ Fills suffix frame) ∧
    InOrder (calls.filterMap Call.byte?) (run {} calls).2 ∧
    (session.receiver.buffer <:+ session.heard ∧ ∀ start, start <:+ session.heard →
      session.receiver.pending < start.length → Spent start) ∧
    (∀ frame : Frame, extent frame.toBytes = .known frame.toBytes.length →
      ∃ found, .ok (some found) ∈ (session.receiver.feedAll frame.toBytes).2) := by
  have hcovers : (run {} calls).1.Covered := run_covers {} calls (Covers.refl [])
  refine ⟨fun byte frame => Receiver.feed_returns_iff hcovers byte frame, fun byte => ?_,
    run_inOrder {} calls (Covers.refl []), ⟨hcovers.isSuffix, hcovers.spent⟩,
    fun frame hextent => Receiver.feedAll_finds_some hcovers (fills_toBytes hextent).ne_nil
      (List.suffix_append _ _) (fills_toBytes hextent)⟩
  rw [← Receiver.exists_longest_iff]
  exact exists_congr fun frame => Receiver.feed_returns_iff hcovers byte frame

end Session

end DoorBus

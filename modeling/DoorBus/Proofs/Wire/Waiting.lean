import DoorBus.Proofs.Wire.Recogniser
import DoorBus.Proofs.Wire.Unfinished
import Mathlib.Data.List.Induction

/-!
# What the Receiver Waits For

One would expect the bytes kept by a receiver to be the beginning of a frame
that still lacks some of them. There would then be room in the buffer at any
time, and each frame at its front would be reported as soon as it is complete
and fails its check.

This is so unless a byte bares a frame. When the frame at the front fails, its
first byte is given up, and the next place where a frame may start comes to
the front. The start there was tried all the while. If it has all its bytes by
then it has failed as well, without a report, as it was not at the front. No
further byte is its last one, so it is neither reported nor given up, but stays
until a frame is found, the receiver is emptied, or the buffer is full. Until
then no other start comes to the front, and no failure is reported.

`session_waits` says that this is the only way in which the expectation fails.
What still lacks bytes is kept in any case, so no frame is lost.

## Main definitions

* `Receiver.Waits`: What is expected of a receiver.
* `Receiver.Bares`: A byte brings a frame to the front that is complete.

## Theorems

* `waits_iff`: The expectation, reduced to the bytes kept.
* `feedAll_to_full`: A frame at the front is reported if it fails.
* `feedAll_of_complete`: Behind a frame that is complete nothing is.
* `unfinished_feed_iff`: When a byte leaves something unfinished.
* `waiting_feed`: What waits is kept by every byte.
* `run_keeps`: The same after any calls.
* `session_waits`: When a receiver does what is expected of it.
* `session_not_waits`: An answer with a frame in it, received twice.
-/

namespace DoorBus

namespace Receiver

/-- What is expected of a receiver. What it keeps lacks bytes, so it is shorter
    than the longest frame, and does not begin with a whole one. When the frame
    at the front gets its last byte, that byte reports a failure, and none
    before it does, unless one of them returns a frame. -/
structure Waits (receiver : Receiver) : Prop where
  unfinished : receiver.pending = 0 ∨ Unfinished receiver.buffer
  pending_lt : receiver.pending < Frame.maxLength
  none_whole : ∀ part, part <+: receiver.buffer → extent part ≠ .known part.length
  reports : ∀ more, more ≠ [] →
    extent (receiver.buffer ++ more) = .known (receiver.buffer ++ more).length →
    (∀ frame, .ok (some frame) ∉ (receiver.feedAll more).2) →
    (receiver.feedAll more).2
      = List.replicate (more.length - 1) (.ok none) ++ [.error .checksumMismatch]

/-- The byte completes the frame at the front, no frame ends with it, and the
    next place where a frame may start is that of a frame which is complete as
    well. -/
structure Bares (front : List UInt8) (byte : UInt8) : Prop where
  full : extent (front ++ [byte]) = .known (front ++ [byte]).length
  fails : ∀ suffix frame, suffix <:+ front ++ [byte] → ¬ Fills suffix frame
  bared : Complete (dropImpossible (front ++ [byte]).tail)

/-! ## The frame at the front -/

/-- The bytes of a frame at the front lead to nothing until the last one, and
    to a report with that, if no frame is found. The induction is on the bytes
    that are still to come. -/
theorem feedAll_to_full {buffer more : List UInt8} (hne : more ≠ [])
    (hfull : extent (buffer ++ more) = .known (buffer ++ more).length)
    (hnone : ∀ frame, .ok (some frame) ∉ (feedAll ⟨buffer⟩ more).2) :
    (feedAll ⟨buffer⟩ more).2
      = List.replicate (more.length - 1) (.ok none) ++ [.error .checksumMismatch] := by
  induction more generalizing buffer with
  | nil => exact absurd rfl hne
  | cons byte rest ih =>
      have hroom : buffer.length < Frame.maxLength := by
        have hle := (le_of_extent_known hfull).2
        rw [List.length_append, List.length_cons] at hle
        omega
      rw [List.append_cons] at hfull
      have hpossible : extent (buffer ++ [byte]) ≠ .impossible := by
        intro himpossible
        rw [extent_append _ rest (by rw [himpossible]; exact Extent.noConfusion),
          himpossible] at hfull
        exact absurd hfull Extent.noConfusion
      rcases no_frame_of_cons hnone with ⟨hfirst, hlater⟩
      have hcompleted := completed?_of_no_frame hfirst
      rw [feedAll_cons]
      cases rest with
      | nil =>
          have hcandidates : candidates ⟨buffer⟩ byte = buffer ++ [byte] :=
            candidates_of_possible hroom hpossible
          rw [List.append_nil, ← hcandidates] at hfull
          rw [feed_of_failed hcompleted hfull]
          rfl
      | cons next others =>
          -- The length is larger as yet, or not even known.
          have hopen : extent (buffer ++ [byte]) ≠ .known (buffer ++ [byte]).length := by
            intro hknown
            rw [extent_append _ _ (by rw [hknown]; exact Extent.noConfusion), hknown,
              Extent.known.injEq] at hfull
            simp only [List.length_append, List.length_cons] at hfull
            omega
          have hkept : feed ⟨buffer⟩ byte = (⟨buffer ++ [byte]⟩, .ok none) :=
            feed_of_kept hroom hpossible hopen hcompleted
          rw [hkept] at hlater ⊢
          rw [ih (List.cons_ne_nil next others) hfull hlater]
          rfl

/-- Behind a frame at the front that is complete nothing is reported, and
    nothing given up, as long as there is room and no frame is found. -/
theorem feedAll_of_complete {buffer more : List UInt8} (h : Complete buffer)
    (hroom : buffer.length + more.length ≤ Frame.maxLength)
    (hnone : ∀ frame, .ok (some frame) ∉ (feedAll ⟨buffer⟩ more).2) :
    feedAll ⟨buffer⟩ more = (⟨buffer ++ more⟩, List.replicate more.length (.ok none)) := by
  induction more generalizing buffer with
  | nil => rw [List.append_nil]; rfl
  | cons byte rest ih =>
      rw [List.length_cons] at hroom
      rcases h with ⟨length, hknown, hle⟩
      have hsettled : extent (buffer ++ [byte]) = .known length := by
        rw [extent_append _ _ (by rw [hknown]; exact Extent.noConfusion), hknown]
      -- The frame at the head ended before this byte, so the buffer is no frame
      -- that is full just now.
      have hopen : extent (buffer ++ [byte]) ≠ .known (buffer ++ [byte]).length := by
        rw [hsettled, ne_eq, Extent.known.injEq, List.length_append, List.length_singleton]
        omega
      rcases no_frame_of_cons hnone with ⟨hfirst, hlater⟩
      have hkept : feed ⟨buffer⟩ byte = (⟨buffer ++ [byte]⟩, .ok none) :=
        feed_of_kept (Nat.lt_of_lt_of_le (Nat.lt_add_of_pos_right (Nat.succ_pos _)) hroom)
          (by rw [hsettled]; exact Extent.noConfusion) hopen (completed?_of_no_frame hfirst)
      have hlength : (buffer ++ [byte]).length = buffer.length + 1 := by
        rw [List.length_append, List.length_singleton]
      rw [hkept] at hlater
      rw [feedAll_cons, hkept,
        ih ⟨length, hsettled, by omega⟩ (by omega) hlater, ← List.append_cons, List.length_cons,
        List.replicate_succ]

theorem waits_iff (receiver : Receiver) : receiver.Waits ↔ Unfinished receiver.buffer := by
  constructor
  · intro h
    rcases h.unfinished with hempty | hunfinished
    · rw [List.length_eq_zero_iff.mp hempty]
      exact unfinished_nil
    · exact hunfinished
  · intro h
    refine ⟨.inr h, h.length_lt, ?_, fun more hne hfull hnone => feedAll_to_full hne hfull hnone⟩
    -- A whole frame would not lack bytes, and neither would what begins with it.
    rintro part ⟨rest, hrest⟩ hwhole
    rw [← hrest] at h
    exact ((unfinished_iff part).mp h.front).2 ⟨part.length, hwhole, Nat.le_refl _⟩

/-! ## One byte -/

/-- After dropping only two things are left to be, complete or unfinished. -/
theorem unfinished_dropImpossible_iff (bytes : List UInt8) :
    Unfinished (dropImpossible bytes) ↔ ¬ Complete (dropImpossible bytes) := by
  rw [unfinished_iff]
  exact and_iff_right (extent_dropImpossible bytes)

/-- A header that turns out impossible leaves no room for a frame behind it
    that was complete before. -/
theorem unfinished_feed_of_impossible {receiver : Receiver} {byte : UInt8}
    (h : extent receiver.buffer = .incomplete)
    (himpossible : extent (receiver.buffer ++ [byte]) = .impossible)
    (hnone : completed? (receiver.candidates byte) = none) :
    Unfinished (receiver.feed byte).1.buffer := by
  have hroom := Unfinished.length_lt (.inl h)
  have hcandidates : receiver.candidates byte = dropImpossible (receiver.buffer ++ [byte]) := by
    rw [candidates, accept, if_neg (Nat.ne_of_lt hroom)]
  have hshort := length_behind_header h himpossible
  rw [← hcandidates] at hshort
  by_cases hfull : extent (receiver.candidates byte) = .known (receiver.candidates byte).length
  · rw [feed_of_failed hnone hfull, unfinished_dropImpossible_iff]
    intro hcomplete
    -- Without its first byte the frame is shorter than any.
    have hmin := hcomplete.minLength_le
    have hle := (covers_dropImpossible (receiver.candidates byte).tail).isSuffix.length_le
    have hpos := (le_of_extent_known hfull).1
    rw [List.length_tail] at hle
    rw [Frame.minLength] at hmin hshort hpos
    omega
  · rw [feed_of_open hnone hfull, hcandidates, unfinished_dropImpossible_iff, ← hcandidates]
    rintro ⟨length, hknown, hle⟩
    have hmin := (le_of_extent_known hknown).1
    have hlength : length = (receiver.candidates byte).length := by omega
    exact hfull (by rw [hknown, hlength])

/-- From an unfinished start a byte leads to one again, unless it bares a
    frame. -/
theorem unfinished_feed_iff {receiver : Receiver} (h : Unfinished receiver.buffer) (byte : UInt8) :
    Unfinished (receiver.feed byte).1.buffer ↔ ¬ Bares receiver.buffer byte := by
  by_cases hfull : extent (receiver.buffer ++ [byte]) = .known (receiver.buffer ++ [byte]).length
  -- The byte fills the frame at the head.
  · have hcandidates : receiver.candidates byte = receiver.buffer ++ [byte] :=
      candidates_of_possible h.length_lt (by rw [hfull]; exact Extent.noConfusion)
    cases hcompleted : completed? (receiver.candidates byte) with
    | some frame =>
        rw [feed_of_completed hcompleted]
        refine iff_of_true unfinished_nil fun hbares => ?_
        rw [hcandidates, completed?_eq_some_iff] at hcompleted
        rcases hcompleted with ⟨suffix, hsuffix, hfills, _⟩
        exact hbares.fails suffix frame hsuffix hfills
    | none =>
        rw [feed_of_failed hcompleted (by rw [hcandidates]; exact hfull),
          unfinished_dropImpossible_iff, hcandidates]
        rw [hcandidates, completed?_eq_none_iff] at hcompleted
        exact not_congr ⟨fun hbared => ⟨hfull, hcompleted, hbared⟩, Bares.bared⟩
  -- It does not, and then no complete frame comes to stand at the head.
  · refine iff_of_true ?_ fun hbares => hfull hbares.full
    cases hcompleted : completed? (receiver.candidates byte) with
    | some frame =>
        rw [feed_of_completed hcompleted]
        exact unfinished_nil
    | none =>
        by_cases himpossible : extent (receiver.buffer ++ [byte]) = .impossible
        · have hincomplete : extent receiver.buffer = .incomplete := by
            by_cases hsettled : extent receiver.buffer = .incomplete
            · exact hsettled
            · rw [extent_append _ _ hsettled] at himpossible
              exact absurd himpossible ((unfinished_iff _).mp h).1
          exact unfinished_feed_of_impossible hincomplete himpossible hcompleted
        · rw [feed_of_kept h.length_lt himpossible hfull hcompleted, unfinished_iff]
          refine ⟨himpossible, fun hcomplete => ?_⟩
          rcases complete_concat hcomplete with hbefore | hnow
          · exact ((unfinished_iff _).mp h).2 hbefore
          · exact hfull hnow

theorem possible_feed (receiver : Receiver) (byte : UInt8) :
    extent (receiver.feed byte).1.buffer ≠ .impossible := by
  rcases receiver.feed_cases byte with ⟨frame, _, hfeed⟩ | ⟨_, _, hfeed⟩ | ⟨_, _, hfeed⟩
  · rw [hfeed]
    exact Extent.noConfusion
  · rw [hfeed]
    exact extent_dropImpossible _
  · rw [hfeed]
    exact extent_dropImpossible _

-- A full buffer makes room first.
theorem length_feed_le {receiver : Receiver} (h : receiver.buffer.length ≤ Frame.maxLength)
    (byte : UInt8) : (receiver.feed byte).1.buffer.length ≤ Frame.maxLength := by
  have haccept : (accept receiver.buffer byte).length ≤ Frame.maxLength := by
    rw [accept]
    by_cases hfull : receiver.buffer.length = Frame.maxLength
    · rw [if_pos hfull, List.length_append, List.length_tail, hfull, List.length_singleton]
      decide
    · rw [if_neg hfull, List.length_append, List.length_singleton]
      omega
  have hcandidates : (receiver.candidates byte).length ≤ Frame.maxLength :=
    Nat.le_trans (covers_dropImpossible _).isSuffix.length_le haccept
  rcases receiver.feed_cases byte with ⟨frame, _, hfeed⟩ | ⟨_, _, hfeed⟩ | ⟨_, _, hfeed⟩
  · rw [hfeed]
    exact Nat.zero_le _
  · rw [hfeed]
    have hrest := (covers_dropImpossible (receiver.candidates byte).tail).isSuffix.length_le
    rw [List.length_tail] at hrest
    exact Nat.le_trans hrest (Nat.le_trans (Nat.sub_le _ 1) hcandidates)
  · rw [hfeed]
    exact hcandidates

-- The byte that a full buffer gives up starts more bytes than any frame has.
theorem waiting_candidates (receiver : Receiver) (byte : UInt8) :
    waiting (receiver.candidates byte) = waiting (receiver.buffer ++ [byte]) := by
  rw [candidates, waiting_dropImpossible, accept]
  by_cases hfull : receiver.buffer.length = Frame.maxLength
  · rw [if_pos hfull]
    -- A buffer with no room left is longer than anything unfinished.
    have hfinished : ¬ Unfinished (receiver.buffer ++ [byte]) := by
      intro hunfinished
      have hlt := hunfinished.length_lt
      rw [List.length_append, hfull] at hlt
      omega
    have hne : receiver.buffer ≠ [] := by
      intro hnil
      rw [hnil] at hfull
      exact absurd hfull (by decide)
    rw [waiting_of_finished hfinished, List.tail_append_of_ne_nil hne]
  · rw [if_neg hfull]

/-- A byte that returns nothing keeps whatever may still be completed. -/
theorem waiting_feed {receiver : Receiver} {byte : UInt8}
    (hnone : ∀ frame, (receiver.feed byte).2 ≠ .ok (some frame)) :
    waiting (receiver.feed byte).1.buffer = waiting (receiver.buffer ++ [byte]) := by
  rw [← waiting_candidates]
  rcases receiver.feed_cases byte with ⟨frame, _, hfeed⟩ | ⟨_, hfull, hfeed⟩ | ⟨_, _, hfeed⟩
  · exact absurd (congrArg Prod.snd hfeed) (hnone frame)
  · have hfinished : ¬ Unfinished (receiver.candidates byte) := fun hunfinished =>
      ((unfinished_iff _).mp hunfinished).2 ⟨_, hfull, Nat.le_refl _⟩
    rw [hfeed, waiting_dropImpossible, ← waiting_of_finished hfinished]
  · rw [hfeed]

end Receiver

/-! ## Any calls -/

namespace Session

open Receiver (Call Bares)

/-- What is kept is bounded and possible, and ends with what may still be
    completed of all that was heard. -/
structure Keeps (session : Session) : Prop where
  length_le : session.receiver.pending ≤ Frame.maxLength
  possible : extent session.receiver.buffer ≠ .impossible
  waiting_eq : waiting session.receiver.buffer = waiting session.heard

theorem keeps_new : ({} : Session).Keeps := ⟨Nat.zero_le _, Extent.noConfusion, rfl⟩

/-- What waits is found from what waited before, so the receiver and all that
    was heard agree on it. -/
theorem call_keeps {session : Session} (h : session.Keeps) (call : Call) :
    (session.call call).1.Keeps := by
  cases call with
  | feed byte =>
      by_cases hreturns : ∃ frame, (session.receiver.feed byte).2 = .ok (some frame)
      · rcases hreturns with ⟨frame, hframe⟩
        rw [call_feed_of_returns hframe]
        exact keeps_new
      · rw [not_exists] at hreturns
        rw [call_feed_of_none hreturns]
        refine ⟨Receiver.length_feed_le h.length_le byte, Receiver.possible_feed _ byte, ?_⟩
        calc waiting (session.receiver.feed byte).1.buffer
            = waiting (session.receiver.buffer ++ [byte]) := Receiver.waiting_feed hreturns
          _ = waiting (waiting session.receiver.buffer ++ [byte]) := (waiting_append _ _).symm
          _ = waiting (waiting session.heard ++ [byte]) := by rw [h.waiting_eq]
          _ = waiting (session.heard ++ [byte]) := waiting_append _ _
  | flush =>
      rw [Session.call, flush_eq]
      exact keeps_new
  | reset => exact keeps_new

/-- The invariant, by induction over the calls. -/
theorem run_keeps {session : Session} (h : session.Keeps) (calls : List Call) :
    (session.run calls).1.Keeps := by
  induction calls generalizing session with
  | nil => exact h
  | cons call calls ih => exact ih (call_keeps h call)

theorem run_concat (session : Session) (calls : List Call) (call : Call) :
    (session.run (calls ++ [call])).1 = ((session.run calls).1.call call).1 := by
  induction calls generalizing session with
  | nil => rfl
  | cons first calls ih => rw [List.cons_append, run_cons, ih, run_cons]

/-- What is left by a call on a receiver that has waited. -/
theorem unfinished_call_iff {session : Session} (h : Unfinished session.receiver.buffer)
    (call : Call) :
    Unfinished (session.call call).1.receiver.buffer ↔
      ∀ byte, call = .feed byte → ¬ Bares session.receiver.buffer byte := by
  cases call with
  | feed byte =>
      rw [receiver_call_feed, Receiver.unfinished_feed_iff h]
      refine ⟨fun hbares other hother => ?_, fun hbares => hbares byte rfl⟩
      rw [← Call.feed.inj hother]
      exact hbares
  | flush =>
      rw [Session.call, flush_eq]
      exact iff_of_true unfinished_nil fun byte hfeed => Call.noConfusion hfeed
  | reset => exact iff_of_true unfinished_nil fun byte hfeed => Call.noConfusion hfeed

/-- A receiver waits throughout exactly if no byte bares a frame. While it
    waits, what it keeps is what waits of all that was heard. -/
theorem run_unfinished_iff (calls : List Call) :
    (∀ front, front <+: calls → Unfinished (run {} front).1.receiver.buffer) ↔
      ∀ front byte, front ++ [.feed byte] <+: calls →
        ¬ Bares (waiting (run {} front).1.heard) byte := by
  have hbuffer : ∀ front, Unfinished (run {} front).1.receiver.buffer →
      (run {} front).1.receiver.buffer = waiting (run {} front).1.heard := by
    intro front hfront
    rw [← (run_keeps keeps_new front).waiting_eq, waiting_of_unfinished hfront]
  constructor
  · intro h front byte hfed
    have hfront := h front ((List.prefix_append front [.feed byte]).trans hfed)
    have hthrough := h _ hfed
    rw [run_concat, unfinished_call_iff hfront] at hthrough
    rw [← hbuffer front hfront]
    exact hthrough byte rfl
  · intro h front hfront
    -- The calls up to some point are followed one by one.
    induction front using List.reverseRecOn with
    | nil => exact unfinished_nil
    | append_singleton front call ih =>
        have hbefore := ih ((List.prefix_append front [call]).trans hfront)
        rw [run_concat, unfinished_call_iff hbefore]
        rintro byte rfl
        rw [hbuffer front hbefore]
        exact h front byte hfront

/-- When a receiver does what is expected of it, after any calls on a new one.
    It does so after each call exactly if no byte has bared a frame in what
    waited then. At any time it keeps no more than the longest frame takes, and
    all that still lacks bytes. When it does not do what is expected, a frame at
    the front is complete, and bytes only pile up behind it, without a report,
    until they return a frame or the buffer is full. -/
theorem session_waits (calls : List Call) :
    let session := (run {} calls).1
    let receiver := session.receiver
    ((∀ front, front <+: calls → (run {} front).1.receiver.Waits) ↔
      ∀ front byte, front ++ [.feed byte] <+: calls →
        ¬ Bares (waiting (run {} front).1.heard) byte) ∧
    receiver.pending ≤ Frame.maxLength ∧
    (∀ start, start <:+ session.heard → Unfinished start → start <:+ receiver.buffer) ∧
    (¬ receiver.Waits → Complete receiver.buffer ∧
      ∀ more, receiver.pending + more.length ≤ Frame.maxLength →
        (∀ frame, .ok (some frame) ∉ (receiver.feedAll more).2) →
        receiver.feedAll more
          = (⟨receiver.buffer ++ more⟩, List.replicate more.length (.ok none))) := by
  have hkeeps := run_keeps keeps_new calls
  refine ⟨?_, hkeeps.length_le, fun start hstart hunfinished => ?_, fun hnot => ?_⟩
  · rw [← run_unfinished_iff]
    exact forall₂_congr fun front _ => Receiver.waits_iff _
  -- What is unfinished is an end of what waits, and that is an end of the buffer.
  · have hwaiting := suffix_waiting hstart hunfinished
    rw [← hkeeps.waiting_eq] at hwaiting
    exact hwaiting.trans (waiting_suffix _)
  · rw [Receiver.waits_iff, unfinished_iff, not_and, not_not] at hnot
    have hcomplete := hnot hkeeps.possible
    exact ⟨hcomplete, fun more => Receiver.feedAll_of_complete hcomplete⟩

/-- An answer to a bus scan with `0x0297` in its first register, and a wrong
    check. The exception in it is bared. It stays, and the same answer is not
    reported when it comes again. -/
theorem session_not_waits :
    let answer : List UInt8 := [0x02, 0x17, 0x0A, 0x02, 0x97, 0, 0, 0, 0, 0, 0, 0, 0, 0xFF, 0xFF]
    let receiver := (run {} (answer.map .feed)).1.receiver
    (Receiver.feedAll {} answer).2
        = List.replicate 14 (.ok none) ++ [.error .checksumMismatch] ∧
      receiver.pending = 12 ∧ extent receiver.buffer = .known 5 ∧ ¬ receiver.Waits ∧
      (receiver.feedAll answer).2 = List.replicate 15 (.ok none) ∧
      (receiver.feedAll (List.replicate 247 0x55)).1.pending = 259 := by
  intro answer receiver
  refine ⟨by decide +kernel, by decide +kernel, by decide +kernel, ?_, by decide +kernel,
    by decide +kernel⟩
  rw [Receiver.waits_iff]
  decide +kernel

end Session

end DoorBus

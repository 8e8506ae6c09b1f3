import DoorBus.Proofs.Master.Watch

/-!
# A Full Queue Changes Nothing

The queue for the notes is handed through every operation of the bus master, and
each handler on the way may push to it. A note that finds no room is dropped. So
nothing the master does may depend on whether a note was kept, and which notes are
kept may depend on nothing but the room.

`Takes` says as much of a master that keeps to the reference, in a run whose
caller reports on every request. Neither is needed here. The master may be in any
state, with an outcome that has not been dealt with as well, and the caller may do
as it likes. An operation is `Oblivious` if it leaves one master and has one list
of notes, which it pushes to whatever queue it is given. The handlers have been
brought into that form already, so it remains to put them behind one another, byte
by byte and call by call.

The notes of an oblivious operation are those that a queue without limit shows.
With them, what a queue of limited room holds in the end is a matter of lists.

## Main definitions

* `EventQueue.Fits`: A queue with the room that a bridge gives it.
* `Master.Oblivious`: An operation that treats every queue alike.
* `Master.SafeFromOverflow`: What a caller can tell of one.
* `Master.callThrough`: Calls with one queue for all of them.

## Theorems

* `safeFromOverflow`: Oblivious operations are safe from a full queue.
* `oblivious_then`: Oblivious operations can be put behind one another.
* `hearBytes_oblivious`, `hear_oblivious`: Any number of bytes.
* `call_oblivious`, `callThrough_oblivious`: Calls, and runs of them.
* `overflow_harmless`: A full queue changes nothing.
* `overflow_harmless_full`: An answer that finds the queue full.
-/

namespace DoorBus

namespace EventQueue

/-- A queue with the room that a bridge gives it, which holds no more than that. -/
structure Fits (queue : EventQueue) : Prop where
  limit_eq : queue.limit = some capacity
  length_le : queue.events.length ≤ capacity

/-- The queue of a bridge is full from some note on, and all after it are lost. -/
theorem pushAll_of_fits {queue : EventQueue} (h : queue.Fits) (notes : List Event) :
    queue.pushAll notes = { queue with events := (queue.events ++ notes).take capacity } := by
  rcases queue with ⟨limit, events⟩
  rcases h with ⟨hlimit, hlength⟩
  simp only [] at hlimit hlength
  rw [hlimit]
  exact pushAll_of_limit hlength notes

end EventQueue

namespace Master

/-- An operation that treats every queue alike. It leaves the same master, and
    pushes the same notes. -/
def Oblivious (operation : EventQueue → Master × EventQueue) : Prop :=
  ∃ after notes, ∀ queue, operation queue = (after, queue.pushAll notes)

/-- What a caller can tell of an operation that treats every queue alike. There
    are notes that it adds to whatever a queue holds that never fills, and the
    queue of a bridge holds the first ones of all that. -/
structure SafeFromOverflow (operation : EventQueue → Master × EventQueue) : Prop where
  master_eq : ∀ queue queue', (operation queue).1 = (operation queue').1
  notes_eq : ∃ notes,
    (∀ queue, queue.limit = none →
      (operation queue).2 = { queue with events := queue.events ++ notes }) ∧
    ∀ queue, queue.Fits → (operation queue).2 = { queue with
      events := (queue.events ++ notes).take EventQueue.capacity }

/-- To treat every queue alike is enough: the notes are then the same for all of
    them. -/
theorem safeFromOverflow {operation : EventQueue → Master × EventQueue}
    (h : Oblivious operation) : SafeFromOverflow operation := by
  rcases h with ⟨after, notes, hdoes⟩
  refine ⟨fun queue queue' => ?_, notes, fun queue hlimit => ?_, fun queue hfits => ?_⟩
  · rw [hdoes, hdoes]
  · rcases queue with ⟨limit, events⟩
    cases hlimit
    rw [hdoes]
    exact EventQueue.pushAll_unlimited events notes
  · rw [hdoes]
    exact EventQueue.pushAll_of_fits hfits notes

/-- The notes are those that a queue shows which never fills and was empty. -/
theorem SafeFromOverflow.queue_eq {operation : EventQueue → Master × EventQueue}
    (h : SafeFromOverflow operation) {queue : EventQueue} (hfits : queue.Fits) :
    (operation queue).2 = { queue with
      events := (queue.events ++ (operation .unbounded).2.events).take EventQueue.capacity } := by
  rcases h.notes_eq with ⟨notes, hunlimited, hbridge⟩
  rw [hbridge queue hfits, hunlimited .unbounded rfl]
  rfl

/-! ## Operations -/

theorem oblivious_nothing (master : Master) : Oblivious fun queue => (master, queue) :=
  ⟨master, [], fun _ => rfl⟩

/-- Two operations in a row treat every queue alike, as the second one starts
    from the same master in any case. -/
theorem oblivious_then {first : EventQueue → Master × EventQueue}
    (second : Master → EventQueue → Master × EventQueue) (hfirst : Oblivious first)
    (hsecond : ∀ middle, Oblivious (second middle)) :
    Oblivious fun queue => second (first queue).1 (first queue).2 := by
  rcases hfirst with ⟨middle, notes, hdoes⟩
  rcases hsecond middle with ⟨after, more, hdoes'⟩
  refine ⟨after, notes ++ more, ?_⟩
  intro queue
  simp only [hdoes, hdoes', EventQueue.pushAll_append]

/-- Whether a frame is an answer or not, its notes are settled before the queue
    is looked at. -/
theorem onFrame_oblivious (master : Master) (frame : Frame) : Oblivious (master.onFrame frame) := by
  rcases master.onFrame_cases frame with ⟨_, _, _, _, hdoes⟩ | ⟨_, hdoes⟩
  · exact ⟨_, _, hdoes⟩
  · exact ⟨_, _, hdoes⟩

theorem hearByte_oblivious (master : Master) (byte : UInt8) :
    Oblivious (master.hearByte byte) := by
  rw [funext (master.hearByte_eq byte)]
  cases (master.receiver.feed byte).2 with
  | error error => exact ⟨_, [.frameDropped (.ofFrameError error)], fun _ => rfl⟩
  | ok frame? =>
      cases frame? with
      | none => exact oblivious_nothing _
      | some frame => exact onFrame_oblivious _ frame

/-- However many notes the bytes lead to, since each byte finds the same master
    whether or not the notes before it were kept. -/
theorem hearBytes_oblivious (master : Master) (bytes : List UInt8) :
    Oblivious fun queue => master.hearBytes queue bytes := by
  induction bytes generalizing master with
  | nil => exact oblivious_nothing master
  | cons byte rest ih =>
      exact oblivious_then (fun middle queue => middle.hearBytes queue rest)
        (hearByte_oblivious master byte) ih

theorem flushStale_oblivious (master : Master) (now : Millis) :
    Oblivious (master.flushStale now) := by
  by_cases hfresh : master.IsFresh now
  · rw [funext (flushStale_of_fresh hfresh)]
    exact oblivious_nothing master
  · rw [funext (flushStale_of_stale hfresh)]
    exact ⟨_, [.frameDropped .truncated], fun _ => rfl⟩

theorem hear_oblivious (master : Master) (now : Millis) (bytes : List UInt8) :
    Oblivious (master.hear now bytes) := by
  unfold hear
  by_cases hempty : bytes.isEmpty = true
  · simp only [if_pos hempty]
    exact oblivious_nothing master
  · simp only [if_neg hempty]
    exact oblivious_then (fun middle queue =>
      ({ middle with lastHeard := now }).hearBytes queue bytes)
      (flushStale_oblivious master now) fun middle => hearBytes_oblivious _ bytes

theorem resolveFailure_oblivious (master : Master) : Oblivious master.resolveFailure :=
  ⟨_, _, master.resolveFailure_eq⟩

theorem checkTimeouts_oblivious (master : Master) (now : Millis) :
    Oblivious (master.checkTimeouts now) := by
  refine oblivious_then (fun middle queue =>
    if middle.isOverdue now then (middle.move .deadlineElapsed).resolveFailure queue
    else (middle, queue)) (flushStale_oblivious master now) ?_
  intro middle
  by_cases hoverdue : middle.isOverdue now = true
  · simp only [if_pos hoverdue]
    exact resolveFailure_oblivious _
  · simp only [if_neg hoverdue]
    exact oblivious_nothing middle

/-- Beginning a poll. It is settled by the state of the master and by the time
    whether the source is asked for an action. -/
theorem beginIfDue_oblivious {σ : Type} (master : Master) (now : Millis)
    (take : σ → σ × ActionCode) (source : σ) :
    ∃ after notes request, ∀ queue, master.beginIfDue now take source queue
      = ⟨after, if master.isDue now then (take source).1 else source, queue.pushAll notes,
        request⟩ := by
  by_cases hdue : master.isDue now = true
  · simp only [if_pos hdue]
    exact ⟨_, [.sent master.nextKind (take source).2], _, beginIfDue_of_due hdue take source⟩
  · simp only [if_neg hdue]
    exact ⟨_, [], _, beginIfDue_of_not_due hdue take source⟩

/-! ## Calls -/

/-- A call is one of these operations, or it begins a poll with the action given. -/
theorem call_oblivious (master : Master) (call : Call) : Oblivious (master.call call) := by
  cases call with
  | poll now action =>
      rcases beginIfDue_oblivious master now (fun _ => ((), action)) () with
        ⟨after, notes, request, hbegun⟩
      refine ⟨after, notes, ?_⟩
      intro queue
      rw [Master.call, hbegun]
  | sent now => exact oblivious_nothing _
  | unsent => exact resolveFailure_oblivious _
  | hear now bytes => exact hear_oblivious master now bytes
  | check now => exact checkTimeouts_oblivious master now

/-- Calls, one after the other, with one queue for all of them. -/
def callThrough (master : Master) (queue : EventQueue) : List Call → Master × EventQueue
  | [] => (master, queue)
  | call :: calls => (master.call call queue).1.callThrough (master.call call queue).2 calls

/-- One queue for a whole run may fill in the middle of it. The calls after that
    go on alike. -/
theorem callThrough_oblivious (master : Master) (calls : List Call) :
    Oblivious fun queue => master.callThrough queue calls := by
  induction calls generalizing master with
  | nil => exact oblivious_nothing master
  | cons call calls ih =>
      exact oblivious_then (fun middle queue => middle.callThrough queue calls)
        (call_oblivious master call) ih

/-- A full queue changes nothing. For every state of the bus master and every
    call, what becomes of the master does not depend on the queue, and there are
    notes of the call that do not either. A queue that never fills ends up with
    those it held followed by these, and the queue of a bridge with the first of
    them that it has room for. The same holds of any run of calls with one queue.
    When a poll is begun, the request does not depend on the queue either, and
    whether the source of the action is asked for one is decided before the queue
    and the source are known. -/
theorem overflow_harmless (master : Master) :
    (∀ call : Call, SafeFromOverflow (master.call call)) ∧
    (∀ calls : List Call, SafeFromOverflow fun queue => master.callThrough queue calls) ∧
    (∀ now : Millis, ∃ asked : Bool, ∀ (σ : Type) (take : σ → σ × ActionCode) (source : σ),
      let begun := master.beginIfDue now take source
      SafeFromOverflow (fun queue => ((begun queue).master, (begun queue).queue)) ∧
      (∀ queue queue', (begun queue).request = (begun queue').request) ∧
      ∀ queue, (begun queue).source = if asked then (take source).1 else source) := by
  refine ⟨fun call => safeFromOverflow (call_oblivious master call),
    fun calls => safeFromOverflow (callThrough_oblivious master calls),
    fun now => ⟨master.isDue now, ?_⟩⟩
  intro σ take source begun
  rcases beginIfDue_oblivious master now take source with ⟨after, notes, request, hbegun⟩
  have hdoes : ∀ queue, begun queue = ⟨after, if master.isDue now then (take source).1 else source,
      queue.pushAll notes, request⟩ := hbegun
  refine ⟨safeFromOverflow ⟨after, notes, fun queue => ?_⟩, fun queue queue' => ?_,
    fun queue => ?_⟩
  · simp only [hdoes]
  · rw [hdoes, hdoes]
  · rw [hdoes]

/-- The answer to a bus scan, while the queue is full of other notes. What it says
    is learned, though none of its notes is kept. -/
theorem overflow_harmless_full :
    let full : EventQueue := ⟨some 16, List.replicate 16 .lateResponse⟩
    let master : Master := { Master.new .standard with phase := .awaiting .busScan }
    let answer : Call := .hear 0 [0x02, 0x17, 0x0A, 0x00, 0x00, 0x00, 0x05, 0x04, 0x30, 0x10, 0xFF,
      0xA8, 0x45, 0x8F, 0x06]
    full.Fits ∧
      (master.call answer full).1.record.identification.map Vector.toList
        = some [0x0430, 0x10FF, 0xA845] ∧
      (master.call answer full).2 = full := by
  intro full master answer
  have hfits : full.Fits := ⟨rfl, Nat.le_refl 16⟩
  have hsafe := (overflow_harmless master).1 answer
  refine ⟨hfits, ?_, ?_⟩
  · rw [hsafe.master_eq full .empty]
    decide +kernel
  · rw [hsafe.queue_eq hfits]
    have htake : (full.events ++ (master.call answer .unbounded).2.events).take 16 = full.events :=
      List.take_left' List.length_replicate
    rw [EventQueue.capacity, htake]

end Master

end DoorBus

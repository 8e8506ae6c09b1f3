import DoorBus.Agent.Transceiver

/-!
# Half Duplex

Both directions of the bus share one pair of wires. A station that writes while its
direction line is low is not heard, and one that leaves it high drives the bus
against everybody else. So whatever goes wrong, with writes, with flushes or with
the clock, the line has to be high for each write, low for each read, and low again
when the transceiver is done.

A circuit does not tell what is done to it. Here one is put behind a probe, which
sees each access on its way and writes it down, with the level that the direction
line had when the access came. The probe adds nothing else: what an agent gets to
see, and what becomes of the circuit, is the same with it and without.

There are three ways in which a request can go, and each of them is one list of
accesses. So the whole record of a run is known from what was asked and what was
replied, and the discipline is read off the record.

## Main definitions

* `Circuit.Access`: What can be done to a circuit.
* `Circuit.Probe`, `Circuit.probed`: A circuit behind a probe.
* `Circuit.IsDisciplined`: An access at the level that it needs.
* `Hardware.Use`, `Hardware.useAll`: What an agent does with its hardware.
* `Transceiver.Segment`, `Transceiver.Record`: What the probe sees of it.

## Theorems

* `transmit_sent`, `transmit_unflushed`, `transmit_refused`: The three ways.
* `use_probed`, `useAll_probed`: A use leaves the line low, and so does a run.
* `isDisciplined_of_record`: Every access comes at its level.
* `direction_disciplined`: Half duplex, in every run over every circuit.
-/

namespace DoorBus

namespace Millis

theorem toNat_le_longest (span : Millis) : span.toNat ≤ longest :=
  Nat.le_of_lt_succ span.toNat_lt_size

/-- Times that are too long for a word end at the longest one. -/
theorem toNat_plus (a b : Millis) : (plus a b).toNat = min (a.toNat + b.toNat) longest := by
  have hlt : min (a.toNat + b.toNat) longest < UInt32.size :=
    Nat.lt_of_le_of_lt (Nat.min_le_right _ _) (by decide)
  rw [plus, ofNatCapped, UInt32.toNat_ofNat_of_lt' hlt]

theorem zero_plus (span : Millis) : plus 0 span = span := by
  rw [← UInt32.toNat_inj, toNat_plus, UInt32.toNat_zero, Nat.zero_add]
  exact Nat.min_eq_left span.toNat_le_longest

/-- Nothing that is added makes a span shorter. -/
theorem le_plus_right (a b : Millis) : b ≤ plus a b := by
  rw [UInt32.le_iff_toNat_le, toNat_plus]
  exact Nat.le_min.mpr ⟨Nat.le_add_left _ _, b.toNat_le_longest⟩

end Millis

namespace Circuit

/-- What can be done to a circuit, and whether it was. -/
inductive Access
  /-- The direction line was set. -/
  | direction (high : Bool)
  /-- Bytes were written. -/
  | write (bytes : List UInt8) (isDone : Bool)
  /-- The line was flushed. -/
  | flush (isDone : Bool)
  /-- Bytes were read, at most so many. -/
  | read (capacity : Nat)
  /-- Time was let pass. -/
  | delay (span : Millis)
  /-- The host was signalled. -/
  | wake
  deriving DecidableEq, Repr

/-- A circuit behind a probe. -/
structure Probe (β : Type) where
  /-- The circuit. -/
  state : β
  /-- Level of the direction line. -/
  high : Bool
  /-- The accesses, each with the level of the direction line before it. -/
  trace : List (Bool × Access)

variable {β ε : Type}

namespace Probe

/-- An access that takes the circuit to a state. -/
def note (probe : Probe β) (access : Access) (state : β) : Probe β :=
  { probe with state, trace := probe.trace ++ [(probe.high, access)] }

end Probe

/-- The same circuit behind a probe. -/
def probed (circuit : Circuit β ε) : Circuit (Probe β) ε where
  write bytes probe :=
    let (state, result) := circuit.write bytes probe.state
    (probe.note (.write bytes result.isOk) state, result)
  flush probe :=
    let (state, result) := circuit.flush probe.state
    (probe.note (.flush result.isOk) state, result)
  read capacity probe :=
    let (state, result) := circuit.read capacity probe.state
    (probe.note (.read capacity) state, result)
  setDirection high probe :=
    { probe.note (.direction high) (circuit.setDirection high probe.state) with high }
  now probe := circuit.now probe.state
  tick probe := { probe with state := circuit.tick probe.state }
  delay span probe := probe.note (.delay span) (circuit.delay span probe.state)
  wake probe := probe.note .wake (circuit.wake probe.state)

/-- An access at the level that it needs. -/
def IsDisciplined : Bool × Access → Prop
  | (high, .write _ _) | (high, .flush _) => high = true
  | (high, .read _) => high = false
  | (_, .direction _) | (_, .delay _) | (_, .wake) => True

end Circuit

namespace Hardware

/-- What an agent does with its hardware. -/
inductive Use
  /-- Send a request. -/
  | transmit (bytes : List UInt8)
  /-- Take what has arrived, at most so many bytes. -/
  | receive (capacity : Nat)
  /-- Let time pass. -/
  | pause (span : Millis)
  /-- Wake the host. -/
  | wake (mailbox : Mailbox)
  /-- Look at the clock once more. -/
  | tick

/-- What the hardware replies. -/
inductive Reply
  /-- How sending went. -/
  | sent (result : Except BusFault Unit)
  /-- What has arrived. -/
  | received (result : Except BusFault (List UInt8))
  /-- Nothing to reply. -/
  | done

variable {σ : Type}

/-- One use of the hardware. -/
def use (hardware : Hardware σ) : Use → σ → σ × Reply
  | .transmit bytes, state => (hardware.transmit bytes state).map id .sent
  | .receive capacity, state => (hardware.receive capacity state).map id .received
  | .pause span, state => (hardware.pause span state, .done)
  | .wake mailbox, state => (hardware.wakeHost mailbox state, .done)
  | .tick, state => (hardware.tick state, .done)

/-- Some uses, one after the other. -/
def useAll (hardware : Hardware σ) : List Use → σ → σ × List Reply
  | [], state => (state, [])
  | use :: uses, state =>
    let (state, reply) := hardware.use use state
    (hardware.useAll uses state).map id (reply :: ·)

end Hardware

namespace Transceiver

open Circuit (Access Probe)

open Hardware (Use Reply)

variable {β ε : Type}

/-! ## One request -/

/-- The time that the direction is held after a write and a flush. -/
def span (transceiver : Transceiver) (circuit : Circuit β ε) (count : Nat) (raised sent : β) :
    Millis :=
  (transceiver.holdTime count (Millis.elapsed (circuit.now raised) (circuit.now sent))).plus
    transceiver.turnaround

section Transmit

variable (transceiver : Transceiver) {circuit : Circuit β ε} {bytes : List UInt8}
  (probe : Probe β) {written sent : β}

/-- The bytes are on the line, and the direction is held for what is left of
    their time and the turnaround. -/
theorem transmit_sent
    (hwrite : circuit.write bytes (circuit.setDirection true probe.state) = (written, .ok ()))
    (hflush : circuit.flush written = (sent, .ok ())) :
    let raised := circuit.setDirection true probe.state
    let span := transceiver.span circuit bytes.length raised sent
    transceiver.transmit circuit.probed bytes probe
      = (⟨circuit.setDirection false (circuit.delay span sent), false,
          probe.trace ++ [(probe.high, .direction true), (true, .write bytes true),
            (true, .flush true), (true, .delay span), (true, .direction false)]⟩, .ok ()) ∧
    transceiver.transmit circuit bytes probe.state
      = (circuit.setDirection false (circuit.delay span sent), .ok ()) := by
  intro raised span
  refine ⟨?_, ?_⟩
  · simp only [transmit, Circuit.send, Circuit.probed, Probe.note, hwrite, hflush, Except.isOk,
      Except.toBool, List.append_assoc, List.cons_append, List.nil_append]
    rfl
  · simp only [transmit, Circuit.send, hwrite, hflush]
    rfl

/-- Written but not flushed: only the turnaround is held for, and the direction
    goes back all the same. -/
theorem transmit_unflushed {error : ε}
    (hwrite : circuit.write bytes (circuit.setDirection true probe.state) = (written, .ok ()))
    (hflush : circuit.flush written = (sent, .error error)) :
    let after := circuit.setDirection false (circuit.delay transceiver.turnaround sent)
    transceiver.transmit circuit.probed bytes probe
      = (⟨after, false,
          probe.trace ++ [(probe.high, .direction true), (true, .write bytes true),
            (true, .flush false), (true, .delay transceiver.turnaround),
            (true, .direction false)]⟩, .error .transport) ∧
    transceiver.transmit circuit bytes probe.state = (after, .error .transport) := by
  intro after
  refine ⟨?_, ?_⟩
  · simp only [transmit, Circuit.send, Circuit.probed, Probe.note, hwrite, hflush, Except.isOk,
      Except.toBool, Millis.zero_plus, List.append_assoc, List.cons_append, List.nil_append]
    rfl
  · simp only [transmit, Circuit.send, hwrite, hflush, Millis.zero_plus]
    rfl

/-- Bytes that the line refuses are not flushed. Again the direction goes back. -/
theorem transmit_refused {error : ε}
    (hwrite : circuit.write bytes (circuit.setDirection true probe.state)
      = (written, .error error)) :
    let after := circuit.setDirection false (circuit.delay transceiver.turnaround written)
    transceiver.transmit circuit.probed bytes probe
      = (⟨after, false,
          probe.trace ++ [(probe.high, .direction true), (true, .write bytes false),
            (true, .delay transceiver.turnaround), (true, .direction false)]⟩,
        .error .transport) ∧
    transceiver.transmit circuit bytes probe.state = (after, .error .transport) := by
  intro after
  refine ⟨?_, ?_⟩
  · simp only [transmit, Circuit.send, Circuit.probed, Probe.note, hwrite, Except.isOk,
      Except.toBool, Millis.zero_plus, List.append_assoc, List.cons_append, List.nil_append]
    rfl
  · simp only [transmit, Circuit.send, hwrite, Millis.zero_plus]
    rfl

end Transmit

/-! ## Runs -/

/-- What the probe sees of one use, with the reply to it. -/
inductive Segment (turnaround : Millis) : Use → Reply → List (Bool × Access) → Prop
  /-- The bytes could not be written. -/
  | refused (bytes : List UInt8) :
    Segment turnaround (.transmit bytes) (.sent (.error .transport))
      [(false, .direction true), (true, .write bytes false), (true, .delay turnaround),
        (true, .direction false)]
  /-- They were written, and could not be flushed. -/
  | unflushed (bytes : List UInt8) :
    Segment turnaround (.transmit bytes) (.sent (.error .transport))
      [(false, .direction true), (true, .write bytes true), (true, .flush false),
        (true, .delay turnaround), (true, .direction false)]
  /-- They were written and flushed. -/
  | sent (bytes : List UInt8) {span : Millis} (le_span : turnaround ≤ span) :
    Segment turnaround (.transmit bytes) (.sent (.ok ()))
      [(false, .direction true), (true, .write bytes true), (true, .flush true),
        (true, .delay span), (true, .direction false)]
  /-- Something was read, or could not be. -/
  | received (capacity : Nat) (result : Except BusFault (List UInt8)) :
    Segment turnaround (.receive capacity) (.received result) [(false, .read capacity)]
  /-- Time was let pass. -/
  | paused (span : Millis) : Segment turnaround (.pause span) .done [(false, .delay span)]
  /-- The host was signalled. -/
  | woken (mailbox : Mailbox) : Segment turnaround (.wake mailbox) .done [(false, .wake)]
  /-- The clock went on, which is no access. -/
  | ticked : Segment turnaround .tick .done []

/-- What the probe sees of a run, one segment a use. -/
inductive Record (turnaround : Millis) : List Use → List Reply → List (Bool × Access) → Prop
  /-- Nothing was done. -/
  | nil : Record turnaround [] [] []
  /-- One more use before the others. -/
  | cons {use : Use} {reply : Reply} {accesses : List (Bool × Access)} {uses : List Use}
      {replies : List Reply} {rest : List (Bool × Access)} :
    Segment turnaround use reply accesses → Record turnaround uses replies rest →
      Record turnaround (use :: uses) (reply :: replies) (accesses ++ rest)

variable (transceiver : Transceiver) (circuit : Circuit β ε)

/-- Whatever is done, the line is low afterwards, and the probe has seen one of
    the known lists of accesses. The cases are the ways in which writing and
    flushing can go. -/
theorem use_probed (use : Use) (state : β) (trace : List (Bool × Access)) :
    let does := (transceiver.hardware circuit).use use state
    ∃ accesses, Segment transceiver.turnaround use does.2 accesses ∧
      (transceiver.hardware circuit.probed).use use ⟨state, false, trace⟩
        = (⟨does.1, false, trace ++ accesses⟩, does.2) := by
  intro does
  cases use with
  | transmit bytes =>
      -- The two failures leave the pin in different places of the trace, so they
      -- are apart.
      rcases hwrite : circuit.write bytes (circuit.setDirection true state) with ⟨written, _ | _⟩
      · have hdoes := transceiver.transmit_refused ⟨state, false, trace⟩ hwrite
        simp only [does, Hardware.use, hardware, hdoes, Prod.map]
        exact ⟨_, .refused bytes, rfl⟩
      rcases hflush : circuit.flush written with ⟨sent, _ | _⟩
      · have hdoes := transceiver.transmit_unflushed ⟨state, false, trace⟩ hwrite hflush
        simp only [does, Hardware.use, hardware, hdoes, Prod.map]
        exact ⟨_, .unflushed bytes, rfl⟩
      · have hdoes := transceiver.transmit_sent ⟨state, false, trace⟩ hwrite hflush
        simp only [does, Hardware.use, hardware, hdoes, Prod.map]
        exact ⟨_, .sent bytes (Millis.le_plus_right _ _), rfl⟩
  | receive capacity => exact ⟨_, .received capacity _, rfl⟩
  | pause span => exact ⟨_, .paused span, rfl⟩
  | wake mailbox => exact ⟨_, .woken mailbox, rfl⟩
  | tick =>
      refine ⟨[], .ticked, ?_⟩
      rw [List.append_nil]
      rfl

/-- Uses find the line low one after the other, so that their lists stand behind
    one another in the record. -/
theorem useAll_probed (uses : List Use) (state : β) (trace : List (Bool × Access)) :
    let does := (transceiver.hardware circuit).useAll uses state
    ∃ accesses, Record transceiver.turnaround uses does.2 accesses ∧
      (transceiver.hardware circuit.probed).useAll uses ⟨state, false, trace⟩
        = (⟨does.1, false, trace ++ accesses⟩, does.2) := by
  induction uses generalizing state trace with
  | nil => exact ⟨[], .nil, by rw [List.append_nil]; rfl⟩
  | cons use uses ih =>
      rcases transceiver.use_probed circuit use state trace with ⟨accesses, hsegment, hdoes⟩
      rcases ih ((transceiver.hardware circuit).use use state).1 (trace ++ accesses) with
        ⟨rest, hrecord, hrest⟩
      refine ⟨accesses ++ rest, .cons hsegment hrecord, ?_⟩
      rw [Hardware.useAll, hdoes]
      simp only [hrest, List.append_assoc]
      rfl

variable {turnaround : Millis}

theorem isDisciplined_of_segment {use : Use} {reply : Reply} {accesses : List (Bool × Access)}
    (h : Segment turnaround use reply accesses) :
    ∀ entry ∈ accesses, Circuit.IsDisciplined entry := by
  cases h <;> simp only [List.forall_mem_cons, Circuit.IsDisciplined, List.not_mem_nil,
    false_implies, implies_true, and_self]

/-- It is enough that each list keeps the discipline by itself. -/
theorem isDisciplined_of_record {uses : List Use} {replies : List Reply}
    {accesses : List (Bool × Access)} (h : Record turnaround uses replies accesses) :
    ∀ entry ∈ accesses, Circuit.IsDisciplined entry := by
  induction h with
  | nil => exact fun entry hentry => absurd hentry List.not_mem_nil
  | cons hsegment _ ih => exact List.forall_mem_append.mpr ⟨isDisciplined_of_segment hsegment, ih⟩

/-- Half duplex. Whatever level the direction line was found at, and whatever the
    circuit does, with its clock too, the line is low once the transceiver is
    attached and after any uses of it. The record says what was done for each use
    and in which order, so that a request is one write, one flush at most, and one
    pause before the line goes back, and it was sent exactly if both were done.
    Each write and flush came while the line was high, and each read while it was
    low. The probe itself changes nothing. -/
theorem direction_disciplined (state : β) (high : Bool) (uses : List Use) :
    let attached := attach circuit.probed ⟨state, high, []⟩
    let run := (transceiver.hardware circuit.probed).useAll uses attached
    attached.high = false ∧ run.1.high = false ∧
      (∃ accesses, Record transceiver.turnaround uses run.2 accesses ∧
        run.1.trace = (high, .direction false) :: accesses) ∧
      (∀ entry ∈ run.1.trace, Circuit.IsDisciplined entry) ∧
      (run.1.state, run.2) = (transceiver.hardware circuit).useAll uses (attach circuit state) := by
  intro attached run
  rcases transceiver.useAll_probed circuit uses (attach circuit state) [(high, .direction false)]
    with ⟨accesses, hrecord, hrun⟩
  have hdoes : run = (⟨_, false, (high, .direction false) :: accesses⟩, _) := hrun
  refine ⟨rfl, ?_, ⟨accesses, ?_, ?_⟩, ?_, ?_⟩
  · rw [hdoes]
  · rw [hdoes]
    exact hrecord
  · rw [hdoes]
  · rw [hdoes]
    exact List.forall_mem_cons.mpr ⟨trivial, isDisciplined_of_record hrecord⟩
  · rw [hdoes]

end Transceiver

end DoorBus

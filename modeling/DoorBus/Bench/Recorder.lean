import DoorBus.Agent.Transceiver

/-!
# A Recording Circuit

A circuit that writes down, in order, everything a transceiver does to it.
Writing and flushing take as long as they are told to, and fail after that if
they are told to.

## Main definitions

* `Recorder`: The state of the circuit.
* `Recorder.Entry`: What a transceiver can do to it.
* `Recorder.circuit`: The circuit.
-/

namespace DoorBus

/-- What a transceiver can do to a recording circuit. -/
inductive Recorder.Entry
  /-- The direction was set. -/
  | direction (transmitting : Bool)
  /-- Bytes were written, with the direction as given. -/
  | write (bytes : List UInt8) (transmitting : Bool)
  /-- The line was flushed. -/
  | flush
  /-- Time was let pass. -/
  | delay (span : Millis)
  /-- The host was woken. -/
  | wake
  deriving DecidableEq, Repr

/-- A circuit that records. -/
structure Recorder where
  /-- The clock. -/
  now : Millis := 0
  /-- The direction. -/
  transmitting : Bool := false
  /-- Bytes to be read. -/
  incoming : List UInt8 := []
  /-- The record, first entry first. -/
  entries : Array Recorder.Entry := #[]
  /-- Time that a write takes. -/
  writeTime : Millis := 0
  /-- Time that a flush takes. -/
  flushTime : Millis := 0
  /-- Whether writes fail. -/
  failWrites : Bool := false
  /-- Whether flushes fail. -/
  failFlushes : Bool := false
  /-- Whether reads fail. -/
  failReads : Bool := false
  deriving DecidableEq

namespace Recorder

/-- Add to the record. -/
def note (recorder : Recorder) (entry : Entry) : Recorder :=
  { recorder with entries := recorder.entries.push entry }

/-- Time passes. -/
def elapse (recorder : Recorder) (span : Millis) : Recorder :=
  { recorder with now := recorder.now + span }

/-- Outcome of an operation that may be told to fail. -/
def outcome {α : Type} (fails : Bool) (value : α) : Except Unit α :=
  if fails then .error () else .ok value

/-- The circuit of a recorder. -/
def circuit : Circuit Recorder Unit where
  write bytes recorder :=
    ((recorder.note (.write bytes recorder.transmitting)).elapse recorder.writeTime,
      outcome recorder.failWrites ())
  flush recorder :=
    ((recorder.note .flush).elapse recorder.flushTime, outcome recorder.failFlushes ())
  read capacity recorder :=
    if recorder.failReads then
      (recorder, .error ())
    else
      ({ recorder with incoming := recorder.incoming.drop capacity },
        .ok (recorder.incoming.take capacity))
  setDirection transmitting recorder :=
    { recorder.note (.direction transmitting) with transmitting }
  now recorder := recorder.now
  delay span recorder := (recorder.note (.delay span)).elapse span
  wake recorder := recorder.note .wake

end Recorder

end DoorBus

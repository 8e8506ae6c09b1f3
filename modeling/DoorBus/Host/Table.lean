import DoorBus.Agent.Transceiver

/-!
# The Host Table

On the main core the host owns the line and the direction line. It lends them
to the bridge as a table of functions over a state of its own. The functions
of the line report how many bytes they have moved, or a negative number when
they fail; the bridge does not take their word for it, and refuses a write
that moved any other number of bytes than it was given.

A host that reports more bytes than it has filled leaves the rest of the buffer
as it was handed over. Here that is zeros at every read. Where the bridge runs,
one buffer serves all the reads of a step and is zeroed only before the first,
so behind a host of that kind a later read can bring bytes of an earlier one in
place of these zeros. A host that fills what it reports makes no difference
between the two.

## Main definitions

* `HostTable`: The functions, over a state `β`.
* `HostLineError`: Why the line of a host could not be used.
* `HostTable.write`, `HostTable.read`: The line, with its reports checked.
* `HostTable.circuit`: The table as a circuit.
* `HostPin`: The direction line, with what it was last set to.
-/

namespace DoorBus

/-- The functions that a host lends, over a state `β`. -/
structure HostTable (β : Type) where
  /-- Read into a buffer of so many zeros. Gives the report, and the buffer
      as far as it was filled. -/
  readLine : Nat → β → β × Int32 × List UInt8
  /-- Write bytes and wait until they are sent. Gives the report. -/
  writeLine : List UInt8 → β → β × Int32
  /-- Switch to transmit, or to listen. -/
  setDirection : Bool → β → β
  /-- Read the clock. -/
  now : β → Millis
  /-- What happens between two looks at the clock in a row. The host lends no
      function for it. -/
  tick : β → β := id
  /-- Let time pass. -/
  sleep : Millis → β → β
  /-- Take a line for the log, if the host keeps one. -/
  log : Option (String → β → β)

/-- Why the line of a host could not be used. -/
inductive HostLineError
  /-- The host reported a failure. -/
  | failed (report : Int32)
  /-- The host moved another number of bytes than it was given. -/
  | shortWrite (written expected : Nat)
  deriving DecidableEq, Repr

namespace HostTable

variable {β : Type}

/-- Number of bytes that a report claims. -/
def claimed (report : Int32) : Except HostLineError Nat :=
  if report < 0 then .error (.failed report) else .ok report.toInt.toNat

/-- What a report on a write of so many bytes amounts to. -/
def checkWrite (expected : Nat) (report : Int32) : Except HostLineError Unit := do
  let written ← claimed report
  if written ≠ expected then
    throw (.shortWrite written expected)

/-- The bytes in a buffer of a given size that a report on a read claims.
    More than the buffer holds cannot have been read. -/
def checkRead (capacity : Nat) (report : Int32) (filled : List UInt8) :
    Except HostLineError (List UInt8) := do
  let count ← claimed report
  return (filled ++ List.replicate (capacity - filled.length) 0).take (min count capacity)

/-- Write bytes to the line. -/
def write (table : HostTable β) (bytes : List UInt8) (state : β) :
    β × Except HostLineError Unit :=
  let (state, report) := table.writeLine bytes state
  (state, checkWrite bytes.length report)

/-- Read what has arrived, at most so many bytes. -/
def read (table : HostTable β) (capacity : Nat) (state : β) :
    β × Except HostLineError (List UInt8) :=
  let (state, report, filled) := table.readLine capacity state
  (state, checkRead capacity report filled)

/-- The table as a circuit. A write only returns when the bytes are sent, so
    there is nothing to flush, and the host needs no signal. -/
def circuit (table : HostTable β) : Circuit β HostLineError where
  write := table.write
  flush state := (state, .ok ())
  read := table.read
  setDirection := table.setDirection
  now := table.now
  tick := table.tick
  delay := table.sleep
  wake := id

end HostTable

/-- The direction line of a host, with what it was last set to. -/
structure HostPin where
  /-- Whether it was last set to transmit. -/
  isHigh : Bool := false
  deriving DecidableEq, Repr

namespace HostPin

variable {β : Type}

/-- Set the line. -/
def set (_ : HostPin) (table : HostTable β) (high : Bool) (state : β) : HostPin × β :=
  (⟨high⟩, table.setDirection high state)

end HostPin

end DoorBus

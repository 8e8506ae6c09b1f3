import DoorBus.Message.Basic

/-!
# Poll Responses

The drive answers a poll with the registers asked for, behind a byte that
counts their bytes. The first register carries a counter of the answers, the
second one a counter of the actions taken, both in the high byte. The rest
depends on the kind of poll: a bus scan is answered by the identification of
the drive, a command poll by an action that the drive asks for, or zero.

The answer does not say which kind of poll it belongs to. A reader has to
know what it asked.

## Main definitions

* `Response`: A poll response, of no more registers than any poll asks for.
* `Response.toFrame`: Its frame.
* `Response.ofFrame`: The response to a given kind of poll that a frame is.

## Theorems

* `registers_le_of_length`: An answer of the length that was asked for holds
  no more registers than a response may have.
-/

namespace DoorBus

/-- A poll response. -/
structure Response where
  /-- What was asked. -/
  kind : PollKind
  /-- The registers, which may be fewer than were asked for. -/
  registers : List UInt16
  registers_le : registers.length ≤ PollKind.maxQuantity
  deriving DecidableEq

namespace Response

/-- What stands in the payload. -/
def payload (response : Response) : List UInt8 :=
  UInt8.ofNat (response.registers.length * 2) :: Word.toBytes response.registers

/-- The frame of a response. -/
def toFrame (response : Response) : Except FrameError Frame :=
  Frame.make Address.drive Function.readWriteBlock response.payload

/-- A byte run of the length that a kind of poll asks for holds no more
    registers than any poll asks for. -/
theorem registers_le_of_length {kind : PollKind} {data : List UInt8}
    (exact : data.length = kind.readQuantity.toNat * 2) :
    (Word.ofBytes data).length ≤ PollKind.maxQuantity := by
  rw [Word.length_ofBytes, exact, Nat.mul_div_cancel _ (by decide)]
  exact kind.readQuantity_le

/-- The response to a poll of a given kind that a frame is. -/
def ofFrame (frame : Frame) (kind : PollKind) : Except MessageError Response :=
  if frame.address ≠ Address.drive ∨ frame.function ≠ Function.readWriteBlock then
    .error .unexpectedFrame
  else
    match frame.payload with
    | [] => .error .malformedResponse
    | count :: data =>
      let expected := kind.readQuantity.toNat * 2
      if fits : count.toNat = expected ∧ data.length = expected then
        .ok ⟨kind, Word.ofBytes data, registers_le_of_length fits.2⟩
      else
        .error .malformedResponse

/-- High byte of a register, zero if the register is missing. -/
def highByte (response : Response) (index : Nat) : UInt8 :=
  (response.registers[index]?.map Word.high).getD 0

/-- Counter of the answers of the drive. -/
def syncCounter (response : Response) : UInt8 :=
  response.highByte 0

/-- Counter of the actions that the drive has taken. -/
def commandEcho (response : Response) : UInt8 :=
  response.highByte 1

/-- Code of an action that the drive asks for. Only the answer to a command
    poll has room for one. -/
def driveRequest? (response : Response) : Option UInt16 :=
  match response.kind with
  | .busScan => none
  | .commandPoll => response.registers[2]?.filter (· != 0)

/-- Words by which the drive identifies itself. Only the answer to a bus scan
    has them, behind the two counters. -/
def identification (response : Response) : List UInt16 :=
  match response.kind with
  | .busScan => response.registers.drop 2
  | .commandPoll => []

end Response

end DoorBus

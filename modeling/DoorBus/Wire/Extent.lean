import DoorBus.Wire.Frame

/-!
# Frame Extents

The bus has no start or end marks. How long a received frame is follows from
its header: the address and function say which kind of frame it is, and
broadcasts and poll answers carry a byte count at a fixed place.

Only the frames that a bridge receives have an extent: status broadcasts,
answers to polls and exception answers. Any other start is impossible.

## Main definitions

* `Extent`: What a run of bytes says about the frame that starts there.
* `extent`: The extent of a run of bytes.
-/

namespace DoorBus

/-- What a run of bytes says about the frame that starts with it. -/
inductive Extent
  /-- No frame that a bridge receives starts this way. -/
  | impossible
  /-- The part of the header that gives the length is not there yet. -/
  | incomplete
  /-- The frame takes this many bytes. -/
  | known (length : Nat)
  deriving DecidableEq, Repr

namespace Extent

/-- A frame of a given length, if there can be one. -/
def ofLength (length : Nat) : Extent :=
  if Frame.maxLength < length then .impossible else .known length

/-- A frame that has `fixed` bytes beside those that its byte count tells. -/
def ofCount (fixed : Nat) : Option UInt8 → Extent
  | some count => ofLength (fixed + count.toNat)
  | none => .incomplete

end Extent

/-- Extent of a frame of a given kind, from the bytes behind its address and
    function. -/
def extentOf (address function : UInt8) (rest : List UInt8) : Extent :=
  if address = Address.broadcast ∧ function = Function.writeBlock then
    -- Start and length of the block come before the byte count.
    Extent.ofCount 9 rest[4]?
  else if address = Address.drive ∧ function = Function.readWriteBlock then
    Extent.ofCount 5 rest[0]?
  else if address = Address.drive ∧ function = Function.pollException then
    -- No byte count: the payload is a single code.
    Extent.ofLength 5
  else
    .impossible

/-- Extent of the frame that a run of bytes starts with. -/
def extent : List UInt8 → Extent
  | [] => .incomplete
  | [address] =>
    if address = Address.broadcast ∨ address = Address.drive then .incomplete else .impossible
  | address :: function :: rest => extentOf address function rest

end DoorBus

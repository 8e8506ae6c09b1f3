/-!
# Frame Checksum

Every frame on the bus ends in a 16-bit cyclic redundancy check of all the
bytes before it. The register is kept reflected: bytes enter at the low end
and bits leave there, so the generator appears bit-reversed as `0xA001`.

The check is built up from one bit time. `shift` moves the register by a
single bit, `absorb` folds one byte in and moves eight bits, and `over` does
so for a whole run of bytes from the seed. Each of the three is linear in the
register up to the byte that is mixed in, which is what makes the check
detect corruptions by their position alone.

## Main definitions

* `Checksum.shift`: One bit time of the register.
* `Checksum.absorb`: One byte.
* `Checksum.run`: A run of bytes.
* `Checksum.over`: The check of a run of bytes, from the seed.

## Theorems

* `run_append`: Bytes can be absorbed in parts.
-/

namespace DoorBus

namespace Checksum

/-- Generator x¹⁶ + x¹⁵ + x² + 1, reflected and without its leading term. -/
def generator : UInt16 := 0xA001

/-- Contents of the register before the first byte. -/
def seed : UInt16 := 0xFFFF

/-- One bit time: the low bit leaves, and the generator is subtracted if the
    bit was set. -/
def shift (register : UInt16) : UInt16 :=
  if register &&& 1 = 1 then (register >>> 1) ^^^ generator else register >>> 1

/-- One byte enters the low end of the register and is worked off bit by
    bit. -/
def absorb (register : UInt16) (byte : UInt8) : UInt16 :=
  Nat.repeat shift 8 (register ^^^ byte.toUInt16)

/-- Register after the bytes, from a given start. -/
def run (register : UInt16) (bytes : List UInt8) : UInt16 :=
  bytes.foldl absorb register

/-- Check of a run of bytes. -/
def «over» (bytes : List UInt8) : UInt16 :=
  run seed bytes

theorem run_append (register : UInt16) (xs ys : List UInt8) :
    run register (xs ++ ys) = run (run register xs) ys := by
  simp only [run, List.foldl_append]

end Checksum

end DoorBus

/-!
# Register Words

The drive exposes 16-bit registers. On the wire a register takes two bytes,
the high one first; several registers follow each other without a gap.

## Main definitions

* `Word.join`: A register from its two bytes.
* `Word.high`, `Word.low`: The two bytes of a register.
* `Word.bytes`: A register as it stands on the wire.
* `Word.toBytes`, `Word.ofBytes`: The same for a block of registers.

## Theorems

* `length_toBytes`: A block takes two bytes per register.
* `length_ofBytes`: A byte run holds one register per two bytes.
-/

namespace DoorBus

namespace Word

/-- Register from its high and low byte. -/
def join (high low : UInt8) : UInt16 :=
  (high.toUInt16 <<< 8) ||| low.toUInt16

/-- High byte of a register. -/
def high (word : UInt16) : UInt8 :=
  (word >>> 8).toUInt8

/-- Low byte of a register. -/
def low (word : UInt16) : UInt8 :=
  word.toUInt8

/-- A register on the wire, high byte first. -/
def bytes (word : UInt16) : List UInt8 :=
  [high word, low word]

/-- A block of registers on the wire. -/
def toBytes (words : List UInt16) : List UInt8 :=
  words.flatMap bytes

/-- The registers in a run of bytes. An odd byte at the end belongs to no
    register and is left out. -/
def ofBytes : List UInt8 → List UInt16
  | h :: l :: rest => join h l :: ofBytes rest
  | _ => []

theorem length_toBytes (words : List UInt16) : (toBytes words).length = 2 * words.length := by
  induction words with
  | nil => rfl
  | cons w ws ih =>
    simp only [toBytes, List.flatMap_cons, List.length_append, List.length_cons] at ih ⊢
    rw [ih, bytes]
    simp only [List.length_cons, List.length_nil]
    omega

theorem length_ofBytes (data : List UInt8) : (ofBytes data).length = data.length / 2 := by
  fun_induction ofBytes data with
  | case1 h l rest ih =>
    simp only [List.length_cons, ih]
    omega
  | case2 data hdata =>
    match data, hdata with
    | [], _ => rfl
    | [_], _ => simp only [List.length_nil, List.length_singleton, Nat.reduceDiv]
    | h :: l :: rest, hdata => exact absurd rfl (hdata h l rest)

end Word

end DoorBus

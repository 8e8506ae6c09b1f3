import DoorBus.Clock

/-!
# Line Settings

How a character is put on the line: one start bit, the data bits, a parity
bit if there is one, and the stop bits, at a given number of bits per second.
The drive only speaks one setting, `LineSettings.standard`.

## Main definitions

* `LineSettings`: Speed and shape of a character.
* `LineSettings.standard`: What the drive speaks.
* `LineSettings.characterBits`: Bits that a character takes.
* `LineSettings.characterTime`: Microseconds that a character takes.
-/

namespace DoorBus

/-- Data bits of a character. -/
inductive DataBits
  /-- Seven. -/
  | seven
  /-- Eight. -/
  | eight
  /-- Nine. -/
  | nine
  deriving DecidableEq, Repr

/-- Parity bit of a character. -/
inductive Parity
  /-- No parity bit. -/
  | none
  /-- Completes an even number of ones. -/
  | even
  /-- Completes an odd number of ones. -/
  | odd
  deriving DecidableEq, Repr

/-- Stop bits of a character. -/
inductive StopBits
  /-- One. -/
  | one
  /-- Two. -/
  | two
  deriving DecidableEq, Repr

/-- Number of data bits. -/
def DataBits.count : DataBits → Nat
  | seven => 7
  | eight => 8
  | nine => 9

/-- Number of parity bits. -/
def Parity.count : Parity → Nat
  | none => 0
  | even | odd => 1

/-- Number of stop bits. -/
def StopBits.count : StopBits → Nat
  | one => 1
  | two => 2

/-- Speed and shape of a character on the line. -/
structure LineSettings where
  /-- Bits per second. -/
  baudRate : UInt32
  /-- Data bits. -/
  dataBits : DataBits
  /-- Parity bit. -/
  parity : Parity
  /-- Stop bits. -/
  stopBits : StopBits
  deriving DecidableEq, Repr

namespace LineSettings

/-- What the drive speaks: 57600 bits per second, eight data bits, even
    parity, one stop bit. -/
def standard : LineSettings where
  baudRate := 57600
  dataBits := .eight
  parity := .even
  stopBits := .one

/-- Bits that a character takes, the start bit included. -/
def characterBits (line : LineSettings) : Nat :=
  1 + line.dataBits.count + line.parity.count + line.stopBits.count

/-- Whole microseconds that a character takes. A line without speed has no
    such time. -/
def characterTime (line : LineSettings) : Except ArithmeticFault UInt32 :=
  if line.baudRate = 0 then
    .error .divideByZero
  else
    .ok (.ofNat (line.characterBits * 1000000 / line.baudRate.toNat))

end LineSettings

end DoorBus

import DoorBus.Master.Record

/-!
# The Status Word

A snapshot is handed to the host as a single 32-bit word, so that it is read
whole. From the low end up the word holds the position, the target, the state
code, and four flags: light, link, error, valid.

The word has no room for the coarse state. It follows from the code, unless
the error flag overrides it. A word that is not valid says nothing about the
door, whatever its other bits are. So packing loses something on some
snapshots, but unpacking always gives one that packs without loss.

## Main definitions

* `Snapshot.toWord`: Packing.
* `Snapshot.ofWord`: Unpacking.
-/

namespace DoorBus

namespace StatusWord

/-- The light is on. -/
def lightFlag : UInt8 := 0x01

/-- The link is up. -/
def connectedFlag : UInt8 := 0x02

/-- The coarse state is an error. -/
def errorFlag : UInt8 := 0x04

/-- A status has been heard. -/
def validFlag : UInt8 := 0x08

/-- Word from its four bytes, low one first. -/
def ofBytes (position target code flags : UInt8) : UInt32 :=
  position.toUInt32 ||| (target.toUInt32 <<< 8) ||| (code.toUInt32 <<< 16) |||
    (flags.toUInt32 <<< 24)

/-- Lowest byte of a word. -/
def positionOf (word : UInt32) : UInt8 :=
  word.toUInt8

/-- Second byte of a word. -/
def targetOf (word : UInt32) : UInt8 :=
  (word >>> 8).toUInt8

/-- Third byte of a word. -/
def codeOf (word : UInt32) : UInt8 :=
  (word >>> 16).toUInt8

/-- Highest byte of a word. -/
def flagsOf (word : UInt32) : UInt8 :=
  (word >>> 24).toUInt8

/-- A flag if a condition holds, else nothing. -/
def flagIf (condition : Bool) (flag : UInt8) : UInt8 :=
  if condition then flag else 0

/-- Whether a flag is among the flags. -/
def hasFlag (flags flag : UInt8) : Bool :=
  flags &&& flag != 0

/-- The word of the empty snapshot. -/
def empty : UInt32 := 0x00FF0000

end StatusWord

namespace Snapshot

open StatusWord

/-- The flags of a snapshot. -/
def flags (snapshot : Snapshot) : UInt8 :=
  flagIf snapshot.status.light lightFlag |||
    flagIf snapshot.connected connectedFlag |||
    flagIf (snapshot.status.state = .error) errorFlag |||
    flagIf snapshot.valid validFlag

/-- Pack a snapshot into a word. -/
def toWord (snapshot : Snapshot) : UInt32 :=
  StatusWord.ofBytes snapshot.status.position snapshot.status.target
    snapshot.status.code.toByte snapshot.flags

/-- Unpack a word. -/
def ofWord (word : UInt32) : Snapshot :=
  let flags := flagsOf word
  let valid := hasFlag flags validFlag
  let status :=
    if valid then
      DoorStatus.ofCode (positionOf word) (targetOf word) (.ofByte (codeOf word))
        (hasFlag flags lightFlag)
    else
      .unknown
  { status := if hasFlag flags errorFlag then status.withState .error else status
    connected := hasFlag flags connectedFlag
    valid := valid }

end Snapshot

end DoorBus

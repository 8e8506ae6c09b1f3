/-!
# Address and Function Codes

A frame opens with an address byte and a function byte. Two addresses occur:
that of the broadcasts of the drive, and that of the drive itself, under which
it is asked and answers. Two functions occur: a block write, used by
broadcasts, and a combined read and write, used by polls and their answers. An
answer whose function has its top bit set is an exception.

## Main definitions

* `Address.broadcast`, `Address.drive`: The two addresses.
* `Function.writeBlock`, `Function.readWriteBlock`: The two functions.
* `Function.exceptionFlag`, `Function.pollException`: The marked answer.
-/

namespace DoorBus

namespace Address

/-- Every station listens to this address. -/
def broadcast : UInt8 := 0x00

/-- Requests to the drive and its answers carry this address. -/
def drive : UInt8 := 0x02

end Address

namespace Function

/-- Write a block of registers. -/
def writeBlock : UInt8 := 0x10

/-- Write one block of registers and read another. -/
def readWriteBlock : UInt8 := 0x17

/-- Set in the function of an answer that reports an exception. -/
def exceptionFlag : UInt8 := 0x80

/-- Function of an exception answer to a poll. -/
def pollException : UInt8 := readWriteBlock ||| exceptionFlag

end Function

end DoorBus

/-!
# Hexadecimal Text

Words are shown in hexadecimal with a fixed number of digits, small letters,
and zeros in front. Bytes are shown one after the other, two digits each.

## Main definitions

* `Hex.digit`: The digit for a value below sixteen.
* `Hex.digits`: A number with so many digits.
* `Hex.fixed`: The same as text.
* `Hex.value?`: The value of a digit.
* `Hex.ofBytes`, `Hex.toBytes?`: A run of bytes.

## Theorems

* `length_digits`: The number of digits is the one asked for.
-/

namespace DoorBus

namespace Hex

/-- The digit for a value below sixteen. -/
def digit (value : Nat) : Char :=
  if value < 10 then .ofNat ('0'.toNat + value) else .ofNat ('a'.toNat + value - 10)

/-- The lowest digits of a number, so many of them, highest first. -/
def digits : Nat → Nat → List Char
  | 0, _ => []
  | count + 1, value => digits count (value / 16) ++ [digit (value % 16)]

/-- The lowest digits of a number as text. -/
def fixed (count value : Nat) : String :=
  String.ofList (digits count value)

/-- Value of a digit in either case. -/
def value? (char : Char) : Option Nat :=
  if '0' ≤ char ∧ char ≤ '9' then some (char.toNat - '0'.toNat)
  else if 'a' ≤ char ∧ char ≤ 'f' then some (char.toNat - 'a'.toNat + 10)
  else if 'A' ≤ char ∧ char ≤ 'F' then some (char.toNat - 'A'.toNat + 10)
  else none

/-- A run of bytes as text. -/
def ofBytes (bytes : List UInt8) : String :=
  String.ofList (bytes.flatMap fun byte => digits 2 byte.toNat)

/-- The run of bytes that these digits stand for. -/
def toBytes? : List Char → Option (List UInt8)
  | [] => some []
  | high :: low :: rest => do
    let byte := (← value? high) * 16 + (← value? low)
    return .ofNat byte :: (← toBytes? rest)
  | [_] => none

theorem length_digits (count value : Nat) : (digits count value).length = count := by
  induction count generalizing value with
  | zero => rfl
  | succ count ih => simp only [digits, List.length_append, ih, List.length_singleton]

end Hex

end DoorBus

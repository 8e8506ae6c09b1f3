import DoorBus.Text.Json.Basic

/-!
# Reading JSON

A reader for the whole language: one value, with blanks around it and nothing
else. Each part of the reader takes characters and gives what it has read with
the characters behind it, or nothing.

A value holds values only further on in the text, and each of them takes two
calls at most. So the depth of the reader is bounded by twice the length of
the text.

## Main definitions

* `Json.readString`: Text, up to its closing quote.
* `Json.readNumber`: A number.
* `Json.readValue`: A value.
* `Json.ofText?`: The value that a text is.
-/

namespace DoorBus

namespace Json

/-- Whether a character may stand between the parts of a value. -/
def isBlank (char : Char) : Bool :=
  char = ' ' || char = '\n' || char = '\t' || char = '\r'

/-- Leave out blanks. -/
def skipBlanks (chars : List Char) : List Char :=
  chars.dropWhile isBlank

/-! ## Text -/

/-- The unit that four hexadecimal digits stand for. -/
def hexUnit? (a b c d : Char) : Option Nat := do
  let high := (← Hex.value? a) * 16 + (← Hex.value? b)
  let low := (← Hex.value? c) * 16 + (← Hex.value? d)
  return high * 256 + low

/-- The character that a single letter behind a backslash stands for. -/
def unescape? (char : Char) : Option Char :=
  if char = '"' ∨ char = '\\' ∨ char = '/' then some char
  else if char = 'b' then some '\x08'
  else if char = 'f' then some '\x0c'
  else if char = 'n' then some '\n'
  else if char = 'r' then some '\r'
  else if char = 't' then some '\t'
  else none

/-- Units of a text up to its closing quote. A plain character is a unit of
    its own, whatever its size. -/
def readUnits : List Char → Option (List Nat × List Char)
  | [] => none
  | '"' :: rest => some ([], rest)
  | '\\' :: 'u' :: a :: b :: c :: d :: rest => do
    let unit ← hexUnit? a b c d
    let (units, rest) ← readUnits rest
    return (unit :: units, rest)
  | '\\' :: char :: rest => do
    let char ← unescape? char
    let (units, rest) ← readUnits rest
    return (char.toNat :: units, rest)
  | char :: rest =>
    if char.toNat < 0x20 ∨ char = '\\' then
      none
    else do
      let (units, rest) ← readUnits rest
      return (char.toNat :: units, rest)

/-- Whether a unit opens a surrogate pair. -/
def isHighSurrogate (unit : Nat) : Bool :=
  0xD800 ≤ unit && unit < 0xDC00

/-- Whether a unit closes a surrogate pair. -/
def isLowSurrogate (unit : Nat) : Bool :=
  0xDC00 ≤ unit && unit < 0xE000

/-- Characters of a list of units, unless there is half of a pair. -/
def charsOfUnits : List Nat → Option (List Char)
  | [] => some []
  | high :: low :: rest =>
    if isHighSurrogate high then
      if isLowSurrogate low then
        (charsOfUnits rest).map
          (.ofNat (0x10000 + (high - 0xD800) * 0x400 + (low - 0xDC00)) :: ·)
      else
        none
    else if isLowSurrogate high then
      none
    else
      (charsOfUnits (low :: rest)).map (.ofNat high :: ·)
  | [unit] =>
    if isHighSurrogate unit ∨ isLowSurrogate unit then none else some [.ofNat unit]

/-- Text up to its closing quote. -/
def readString (chars : List Char) : Option (Option String × List Char) :=
  (readUnits chars).map fun (units, rest) => ((charsOfUnits units).map String.ofList, rest)

/-! ## Numbers -/

/-- A run of at least one digit. -/
def readDigits (chars : List Char) : Option (List Char × List Char) :=
  let digits := chars.takeWhile Char.isDigit
  if digits.isEmpty then none else some (digits, chars.dropWhile Char.isDigit)

/-- Whole part of a number: digits, without a needless zero in front. -/
def readWhole (chars : List Char) : Option (List Char × List Char) :=
  match readDigits chars with
  | some ('0' :: _ :: _, _) => none
  | whole => whole

/-- Fraction of a number, if there is one. -/
def readFraction (chars : List Char) : Option (List Char × List Char) :=
  match chars with
  | '.' :: rest => (readDigits rest).map fun (digits, rest) => ('.' :: digits, rest)
  | _ => some ([], chars)

/-- Exponent of a number, if there is one. -/
def readExponent (chars : List Char) : Option (List Char × List Char) :=
  match chars with
  | mark :: rest =>
    if mark = 'e' ∨ mark = 'E' then
      match rest with
      | sign :: rest' =>
        if sign = '+' ∨ sign = '-' then
          (readDigits rest').map fun (digits, rest) => (mark :: sign :: digits, rest)
        else
          (readDigits rest).map fun (digits, rest) => (mark :: digits, rest)
      | [] => none
    else
      some ([], chars)
  | [] => some ([], [])

/-- Value of a run of digits. -/
def naturalOfDigits (digits : List Char) : Nat :=
  digits.foldl (fun value digit => value * 10 + (digit.toNat - '0'.toNat)) 0

/-- A number without its sign. -/
def readUnsigned (chars : List Char) : Option (Json × List Char) := do
  let (whole, rest) ← readWhole chars
  let (fraction, rest) ← readFraction rest
  let (exponent, rest) ← readExponent rest
  if fraction.isEmpty ∧ exponent.isEmpty then
    return (natural (naturalOfDigits whole), rest)
  else
    return (number (whole ++ fraction ++ exponent), rest)

/-- A number. -/
def readNumber (chars : List Char) : Option (Json × List Char) :=
  match chars with
  | '-' :: rest =>
    (readUnsigned rest).map fun (_, behind) =>
      (number (chars.take (chars.length - behind.length)), behind)
  | _ => readUnsigned chars

/-! ## Values -/

/-- A word that stands for a value. -/
def readWord (word : String) (value : Json) (chars : List Char) : Option (Json × List Char) :=
  if word.toList.isPrefixOf chars then some (value, chars.drop word.length) else none

mutual

/-- A value, with blanks in front of it, at most so deep. -/
def readValue : Nat → List Char → Option (Json × List Char)
  | 0, _ => none
  | depth + 1, chars =>
    match skipBlanks chars with
    | '"' :: rest => (readString rest).map fun (text, rest) => (string text, rest)
    | '[' :: rest =>
      match skipBlanks rest with
      | ']' :: rest => some (array [], rest)
      | _ => (readItems depth rest).map fun (items, rest) => (array items, rest)
    | '{' :: rest =>
      match skipBlanks rest with
      | '}' :: rest => some (object [], rest)
      | _ => (readMembers depth rest).map fun (members, rest) => (object members, rest)
    | 'n' :: rest => readWord "ull" null rest
    | 't' :: rest => readWord "rue" (bool true) rest
    | 'f' :: rest => readWord "alse" (bool false) rest
    | chars => readNumber chars

/-- Values with commas between, up to the closing bracket. -/
def readItems : Nat → List Char → Option (List Json × List Char)
  | 0, _ => none
  | depth + 1, chars => do
    let (item, rest) ← readValue depth chars
    match skipBlanks rest with
    | ',' :: rest =>
      let (items, rest) ← readItems depth rest
      return (item :: items, rest)
    | ']' :: rest => return ([item], rest)
    | _ => none

/-- Names and values with commas between, up to the closing brace. -/
def readMembers : Nat → List Char → Option (List (Option String × Json) × List Char)
  | 0, _ => none
  | depth + 1, chars => do
    let (name, rest) ← match skipBlanks chars with
      | '"' :: rest => readString rest
      | _ => none
    let (value, rest) ← match skipBlanks rest with
      | ':' :: rest => readValue depth rest
      | _ => none
    match skipBlanks rest with
    | ',' :: rest =>
      let (members, rest) ← readMembers depth rest
      return ((name, value) :: members, rest)
    | '}' :: rest => return ([(name, value)], rest)
    | _ => none

end

/-- The value that a text is, with blanks around it and nothing else. -/
def ofText? (text : String) : Option Json := do
  let chars := text.toList
  -- A level of nesting takes a character for its two calls, so the depth never runs out.
  let (value, rest) ← readValue (2 * chars.length + 1) chars
  if (skipBlanks rest).isEmpty then some value else none

end Json

end DoorBus

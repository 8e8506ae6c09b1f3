import DoorBus.Text.Hex

/-!
# JSON Values

Settings are stored as JSON. Only unsigned whole numbers are ever needed, so
these are kept as numbers, and any other number only as it was written.

Text may be escaped by UTF-16 units, which allows half of a surrogate pair to
stand on its own. Such text has no characters, and is kept as absent: it can be
skipped, but not read.

## Main definitions

* `Json`: A value.
* `Json.toText`: Its shortest text.
-/

namespace DoorBus

/-- A JSON value. -/
inductive Json
  /-- Nothing. -/
  | null
  /-- True or false. -/
  | bool (value : Bool)
  /-- A number written in digits only. -/
  | natural (value : Nat)
  /-- Any other number, as it was written. -/
  | number (text : List Char)
  /-- Text; absent if it has half of a surrogate pair. -/
  | string (text : Option String)
  /-- Values in order. -/
  | array (items : List Json)
  /-- Names with values, in order. -/
  | object (members : List (Option String × Json))

namespace Json

/-- A character inside quotes. -/
def escape (char : Char) : List Char :=
  if char = '"' then ['\\', '"']
  else if char = '\\' then ['\\', '\\']
  else if char = '\x08' then ['\\', 'b']
  else if char = '\x0c' then ['\\', 'f']
  else if char = '\n' then ['\\', 'n']
  else if char = '\r' then ['\\', 'r']
  else if char = '\t' then ['\\', 't']
  else if char.toNat < 0x20 then '\\' :: 'u' :: Hex.digits 4 char.toNat
  else [char]

/-- Text in quotes. Text without characters is shown by the replacement
    character. -/
def quote (text : Option String) : List Char :=
  '"' :: (text.getD "\ufffd").toList.flatMap escape ++ ['"']

mutual

/-- The characters of a value. -/
def render : Json → List Char
  | null => "null".toList
  | bool true => "true".toList
  | bool false => "false".toList
  | natural value => Nat.toDigits 10 value
  | number text => text
  | string text => quote text
  | array items => '[' :: renderItems items ++ [']']
  | object members => '{' :: renderMembers members ++ ['}']

/-- The characters of values in order, with commas between. -/
def renderItems : List Json → List Char
  | [] => []
  | [item] => render item
  | item :: rest => render item ++ ',' :: renderItems rest

/-- The characters of names and values in order, with commas between. -/
def renderMembers : List (Option String × Json) → List Char
  | [] => []
  | [(name, value)] => quote name ++ ':' :: render value
  | (name, value) :: rest => quote name ++ ':' :: render value ++ ',' :: renderMembers rest

end

/-- The shortest text of a value. -/
def toText (json : Json) : String :=
  String.ofList json.render

end Json

end DoorBus

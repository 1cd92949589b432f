import LineScript.Value

/-!
# JSON

The data that goes over the wire, written without blanks. Objects keep the order of their fields.
-/

namespace LineScript

inductive Json where
  | null
  | bool (value : Bool)
  | number (text : String)
  | string (value : String)
  | array (items : List Json)
  | object (fields : List (String × Json))

namespace Json

/-- A hexadecimal digit in lower case. -/
def hexDigit (n : Nat) : Char :=
  Nat.digitChar n

/-- How a character stands inside a string: quotes, backslashes and controls are escaped. -/
def encodeChar (c : Char) : List Char :=
  if c = '"' then ['\\', '"']
  else if c = '\\' then ['\\', '\\']
  else if c = '\n' then ['\\', 'n']
  else if c = '\r' then ['\\', 'r']
  else if c = '\t' then ['\\', 't']
  else if c.toNat = 8 then ['\\', 'b']
  else if c.toNat = 12 then ['\\', 'f']
  else if c.toNat < 0x20 then
    ['\\', 'u', '0', '0', hexDigit (c.toNat / 16), hexDigit (c.toNat % 16)]
  else [c]

def writeString (s : String) : List Char :=
  '"' :: s.toList.flatMap encodeChar ++ ['"']

/-- The parts with commas between them. -/
def commaSeparated : List (List Char) → List Char
  | [] => []
  | [part] => part
  | part :: parts => part ++ ',' :: commaSeparated parts

mutual

/-- The text of a value. -/
def write : Json → List Char
  | .null => "null".toList
  | .bool b => if b then "true".toList else "false".toList
  | .number text => text.toList
  | .string s => writeString s
  | .array items => '[' :: commaSeparated (writeItems items) ++ [']']
  | .object fields => '\x7b' :: commaSeparated (writeFields fields) ++ ['\x7d']

def writeItems : List Json → List (List Char)
  | [] => []
  | item :: items => write item :: writeItems items

def writeFields : List (String × Json) → List (List Char)
  | [] => []
  | (key, value) :: fields => (writeString key ++ ':' :: write value) :: writeFields fields

end

def toText (j : Json) : String :=
  String.ofList j.write

/-- The field of an object; the last of several with one name counts. -/
def field? (fields : List (String × Json)) (name : String) : Option Json :=
  fields.reverse.lookup name

def string? : Json → Option String
  | .string s => some s
  | _ => none

end Json

namespace Value

/-- The payload of a value, given the name of its kind. -/
def ofPayload? (kind : String) (payload : Json) : Option Value :=
  match payload with
  | .string s => if kind = Kind.text.name then some (.text s) else none
  | .array items =>
    if kind = Kind.list.name then (items.mapM Json.string?).map .list else none
  | .object fields =>
    if kind = Kind.object.name then
      let entry (field : String × Json) : Option (String × String) :=
        field.2.string?.map (field.1, ·)
      (fields.mapM entry).map fun entries => .object (Bindings.ofList entries)
    else none
  | _ => none

/-- The name of a kind, by itself or as the only key of an object with nothing under it. -/
def kindName? : Json → Option String
  | .string name => some name
  | .object [(name, .null)] => some name
  | _ => none

/-- A value is an object with a `type` and a `value`, other fields aside, or the array of a name
and the payload. -/
def ofJson? : Json → Option Value
  | .object fields => do
    let kind ← kindName? (← Json.field? fields "type")
    let payload ← Json.field? fields "value"
    ofPayload? kind payload
  | .array [.string kind, payload] => ofPayload? kind payload
  | _ => none

def toJson (v : Value) : Json :=
  let payload :=
    match v with
    | .text s => .string s
    | .list items => .array (items.map .string)
    | .object fields => .object (fields.sorted.map fun entry => (entry.1, .string entry.2))
  .object [("type", .string v.kind.name), ("value", payload)]

end Value

end LineScript

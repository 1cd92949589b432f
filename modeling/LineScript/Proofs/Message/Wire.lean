import LineScript.Message.Render
import LineScript.Proofs.Json.RoundTrip
import LineScript.Session

/-!
# Messages over the wire

In JSON mode a front end gets a line for each message. `Message.ofLines?` is what it makes of them,
by the rules of the format alone: an object is tagged by its `event`, its fields come in any order
and each once, others are passed over, and a colour that is absent or null is not set. Main
statement: nothing is lost (`json_lines_are_lossless`), whatever stands in texts, colours and
names.
-/

namespace LineScript

/-! ## Reading messages -/

namespace Json

/-- What an object has under a name, if anything. A name that it has twice cannot be read. -/
def once? (fields : List (String × Json)) (name : String) : Option (Option Json) :=
  match fields.filter (·.1 == name) with
  | [] => some none
  | [field] => some (some field.2)
  | _ => none

/-- What an object must have under a name. -/
def required? (fields : List (String × Json)) (name : String) : Option Json :=
  (once? fields name).join

def bool? : Json → Option Bool
  | .bool b => some b
  | _ => none

def strings? : Json → Option (List String)
  | .array items => items.mapM string?
  | _ => none

end Json

namespace Style

/-- A colour that may be absent. -/
def colorOfJson? : Option Json → Option (Option String)
  | none => some none
  | some .null => some none
  | some (.string color) => some (some color)
  | some _ => none

def ofJson? : Json → Option Style
  | .object fields => do
    let color ← colorOfJson? (← Json.once? fields "color")
    let background ← colorOfJson? (← Json.once? fields "background")
    return { color, background }
  | _ => none

end Style

namespace Message

def ofJson? : Json → Option Message
  | .object fields => do
    let text? := (Json.required? fields "text").bind Json.string?
    let style? := (Json.required? fields "style").bind Style.ofJson?
    match ← (← Json.required? fields "event").string? with
    | "output" => return .output (← text?) (← style?)
    | "error" => return .error (← text?) (← style?)
    | "clear" => return .clear
    | "input" => return .input (← (← Json.required? fields "enabled").bool?)
    | "scripts" => return .scripts (← (← Json.required? fields "names").strings?)
    | _ => none
  | _ => none

/-- The message on a line, which stands there without its line feed. -/
def ofLine? (line : List Char) : Option Message :=
  (Json.read? line).bind ofJson?

/-- Another writer's line: fields in another order, blanks, an escape, a null and a stranger. -/
example : ofLine? ("\x7b\"style\": \x7b\"color\":null\x7d, \"text\":\"\\u0068i\", " ++
    "\"more\":[1e3], \"event\":\"output\"\x7d").toList = some (.output "hi" .plain) := by
  cbv

/-- The messages of a text in which every line ends in a line feed. -/
def ofLines? (text : String) : Option (List Message) :=
  let lines := text.toList.splitOn '\n'
  if lines.getLast? = some [] then lines.dropLast.mapM ofLine? else none

end Message

/-! ## What is written is proper JSON, and is read as the message -/

theorem Json.mapM_string? (items : List String) :
    (items.map Json.string).mapM Json.string? = some items := by
  induction items with
  | nil => rfl
  | cons item items ih => simp [ih, Json.string?]

namespace Style

theorem toJson_proper (s : Style) : s.toJson.Proper := by
  obtain ⟨color, background⟩ := s
  cases color <;> cases background <;> exact .object (by simp [Json.Proper.string])

theorem ofJson?_toJson (s : Style) : ofJson? s.toJson = some s := by
  obtain ⟨color, background⟩ := s
  cases color <;> cases background <;> rfl

end Style

namespace Message

theorem toJson_proper (m : Message) : m.toJson.Proper := by
  cases m with
  | output text style => exact .object (by simp [Style.toJson_proper, Json.Proper.string])
  | error text style => exact .object (by simp [Style.toJson_proper, Json.Proper.string])
  | clear => exact .object (by simp [Json.Proper.string])
  | input enabled => exact .object (by simp [Json.Proper.string, Json.Proper.bool])
  | scripts names =>
    have strings : (Json.array (names.map .string)).Proper :=
      .array (by simp [Json.Proper.string])
    exact .object (by simp [strings, Json.Proper.string])

theorem ofJson?_toJson (m : Message) : ofJson? m.toJson = some m := by
  cases m with
  | output text style =>
    have style := Style.ofJson?_toJson style
    simp [toJson, ofJson?, Json.required?, Json.once?, Json.string?, style]
  | error text style =>
    have style := Style.ofJson?_toJson style
    simp [toJson, ofJson?, Json.required?, Json.once?, Json.string?, style]
  | clear => rfl
  | input enabled => rfl
  | scripts names =>
    have names := Json.mapM_string? names
    simp [toJson, ofJson?, Json.required?, Json.once?, Json.string?, Json.strings?, names]

/-! ## Lines -/

theorem ofLine?_write (m : Message) : ofLine? m.toJson.write = some m := by
  rw [ofLine?, m.toJson_proper.read?_write, Option.bind_some, ofJson?_toJson]

/-- No text, colour or name can break a line. -/
theorem newline_notMem_write (m : Message) : '\n' ∉ m.toJson.write := fun mem =>
  absurd (m.toJson_proper.printable _ mem) (by decide)

/-- The lines of a text of lines are those of which it is made, and an empty rest. -/
theorem splitOn_flatMap_write (ms : List Message) :
    (ms.flatMap fun m => m.toJson.write ++ ['\n']).splitOn '\n' =
      ms.map (fun m => m.toJson.write) ++ [[]] := by
  induction ms with
  | nil => rfl
  | cons m ms ih =>
    rw [List.flatMap_cons, List.append_assoc, List.singleton_append,
      List.splitOn_append_cons_self_of_not_mem m.newline_notMem_write, ih, List.map_cons,
      List.cons_append]

theorem mapM_ofLine?_write (ms : List Message) :
    (ms.map fun m => m.toJson.write).mapM ofLine? = some ms := by
  induction ms with
  | nil => rfl
  | cons m ms ih => simp [ih, ofLine?_write]

theorem toList_join_render (ms : List Message) :
    (String.join (ms.filterMap (render? .json))).toList =
      ms.flatMap fun m => m.toJson.write ++ ['\n'] := by
  have each (m : Message) : m.render? .json = some (m.toJson.toText ++ "\n") := rfl
  have line (m : Message) : (m.toJson.toText ++ "\n").toList = m.toJson.write ++ ['\n'] := by
    simp [Json.toText]
  induction ms with
  | nil => rfl
  | cons m ms ih =>
    rw [List.filterMap_cons_some (each m), String.join_cons, String.toList_append, ih, line,
      List.flatMap_cons]

theorem ofLines?_join_render (ms : List Message) :
    ofLines? (String.join (ms.filterMap (render? .json))) = some ms := by
  rw [ofLines?, toList_join_render, splitOn_flatMap_write]
  simp only [List.getLast?_concat, List.dropLast_concat, if_true, mapM_ofLine?_write]

/-- In JSON mode every message is shown, on a line of its own that a front end reads as that
message; and a text of many such lines is read as the messages one after the other. -/
theorem json_lines_are_lossless :
    (∀ m : Message, ∃ line : List Char,
      m.render? .json = some (String.ofList line ++ "\n") ∧ '\n' ∉ line ∧ ofLine? line = some m) ∧
    ∀ ms : List Message,
      ofLines? (String.join (ms.filterMap (Message.render? .json))) = some ms :=
  ⟨fun m => ⟨m.toJson.write, rfl, m.newline_notMem_write, m.ofLine?_write⟩, ofLines?_join_render⟩

end Message

/-- What a session shows in JSON mode tells a front end all that was waiting, in order. -/
theorem Session.ofLines?_flush {s : Session} (json : s.mode = .json) :
    Message.ofLines? s.flush.1 = some s.kernel.workspace.bus.pending.toList := by
  rw [flush, json]
  exact Message.ofLines?_join_render _

end LineScript

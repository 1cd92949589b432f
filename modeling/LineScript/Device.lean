import LineScript.Number.Duration
import LineScript.Number.Literal

/-!
# Devices

Pointer, keyboard and screen. A device performs acts and answers questions; it may refuse either,
and then nothing about it changes. It remembers where the pointer is and, if it keeps a record,
the acts it performed.
-/

namespace LineScript

inductive MouseButton where
  | left | right | middle
  deriving DecidableEq

namespace MouseButton

def ofName? : String → Option MouseButton
  | "left" => some .left
  | "right" => some .right
  | "middle" => some .middle
  | _ => none

def name : MouseButton → String
  | .left => "left"
  | .right => "right"
  | .middle => "middle"

end MouseButton

structure Point where
  x : Binary64
  y : Binary64
  deriving DecidableEq

structure ScreenSize where
  width : Nat
  height : Nat
  deriving DecidableEq

/-- The keys with a name. Any single character is a key as well. -/
def namedKeys : List String :=
  ["backspace", "delete", "enter", "tab", "escape", "up", "down", "right", "left", "home", "end",
   "pageup", "pagedown", "f1", "f2", "f3", "f4", "f5", "f6", "f7", "f8", "f9", "f10", "f11", "f12",
   "command", "alt", "control", "shift", "right_shift", "space", "printscreen", "insert",
   "audio_mute", "audio_vol_down", "audio_vol_up", "audio_play", "audio_stop", "audio_pause",
   "audio_prev", "audio_next", "audio_rewind", "audio_forward", "audio_repeat", "audio_random",
   "numpad_0", "numpad_1", "numpad_2", "numpad_3", "numpad_4", "numpad_5", "numpad_6", "numpad_7",
   "numpad_8", "numpad_9", "lights_mon_up", "lights_mon_down", "lights_kbd_toggle",
   "lights_kbd_up", "lights_kbd_down"]

/-- A single character or the name of a key. -/
def isKey (key : String) : Bool :=
  key.toList.length == 1 || namedKeys.contains key

/-- Why a device refuses. -/
inductive DeviceError where
  | unavailable (reason : String)
  | failed (reason : String)
  deriving DecidableEq

def DeviceError.message : DeviceError → String
  | .unavailable reason => "input control is unavailable: " ++ reason
  | .failed reason => "input control failed: " ++ reason

namespace Device

/-- Something a device does. -/
inductive Act where
  | click (button : MouseButton) (double : Bool)
  | toggleButton (button : MouseButton) (down : Bool)
  | move (target : Point)
  /-- Along a visible path, at a speed above zero and up to ten. -/
  | moveSmooth (target : Point) (speed : Binary64)
  | drag (target : Point)
  | scroll (x y : Binary64)
  | mouseDelay (delay : Duration)
  | keyboardDelay (delay : Duration)
  /-- At most so many characters a minute, if a speed is given. -/
  | type (text : String) (speed : Option Binary64)
  | tapKey (key : String)
  | toggleKey (key : String) (down : Bool)
  deriving DecidableEq

/-- Something a device is asked. -/
inductive Question where
  | position
  | pixel (point : Point)
  | screenSize
  deriving DecidableEq

end Device

structure Device where
  screen : ScreenSize
  /-- The colour of every pixel. -/
  pixelColor : String
  keepsRecord : Bool
  refusesAct : Device.Act → Option DeviceError := fun _ => none
  refusesQuestion : Device.Question → Option DeviceError := fun _ => none
  pointer : Point := ⟨Binary64.zero false, Binary64.zero false⟩
  /-- The acts performed, if a record is kept. -/
  record : Array Device.Act := #[]

namespace Device

/-- Where an act leaves the pointer. -/
def Act.pointer? : Act → Option Point
  | .move target => some target
  | .moveSmooth target _ => some target
  | .drag target => some target
  | _ => none

/-- Perform an act, or refuse it and stay as before. -/
def perform (d : Device) (act : Act) : Except DeviceError Unit × Device :=
  match d.refusesAct act with
  | some e => (.error e, d)
  | none =>
    (.ok (),
      { d with
        pointer := act.pointer?.getD d.pointer
        record := if d.keepsRecord then d.record.push act else d.record })

def position (d : Device) : Except DeviceError Point :=
  match d.refusesQuestion .position with
  | some e => .error e
  | none => .ok d.pointer

def pixel (d : Device) (point : Point) : Except DeviceError String :=
  match d.refusesQuestion (.pixel point) with
  | some e => .error e
  | none => .ok d.pixelColor

def screenSize (d : Device) : Except DeviceError ScreenSize :=
  match d.refusesQuestion .screenSize with
  | some e => .error e
  | none => .ok d.screen

/-- No hardware behind it: every act succeeds and leaves no trace but the pointer. -/
def headless (screen : ScreenSize) : Device :=
  { screen, pixelColor := "#000000", keepsRecord := false }

def standardScreen : ScreenSize := ⟨1920, 1080⟩

/-- Keeps a record of every act, on a small screen. -/
def recording : Device :=
  { screen := ⟨800, 600⟩, pixelColor := "#123456", keepsRecord := true }

end Device

end LineScript

import Keybinds.Command.Category
import Keybinds.Text.Basic

/-!
# Known commands

The table of the commands that can be spelled, and the rules that tell a command's category from its
name. Both work on the bare name: in lower case and without plus signs in front. The first rule that
matches decides; so the longer of two tray names comes first, and the rule for toggles comes last,
behind the named ones.
-/

namespace Keybinds.Command

/-- What a known command takes behind its name. -/
inductive Shape where
  /-- Nothing. -/
  | bare
  | tray
  | trayBackup
  | amount
  | ability
  | text
  deriving DecidableEq, Repr

structure Definition where
  id : String
  /-- The full spelling, with a plus sign for commands that are pressed. -/
  name : String
  category : Category
  shape : Shape
  deriving DecidableEq, Repr

def Definition.known : List Definition := [
  ⟨"tray_exec", "STOTrayExecByTray", .tray, .tray⟩,
  ⟨"tray_with_backup", "TrayExecByTrayWithBackup", .tray, .trayBackup⟩,
  ⟨"power_exec", "+power_exec", .power, .ability⟩,
  ⟨"say", "say", .communication, .text⟩,
  ⟨"team", "team", .communication, .text⟩,
  ⟨"zone", "zone", .communication, .text⟩,
  ⟨"local", "local", .communication, .text⟩,
  ⟨"fleet", "fleet", .communication, .text⟩,
  ⟨"tell", "tell", .communication, .text⟩,
  ⟨"forward", "+forward", .movement, .bare⟩,
  ⟨"backward", "+backward", .movement, .bare⟩,
  ⟨"left", "+left", .movement, .bare⟩,
  ⟨"right", "+right", .movement, .bare⟩,
  ⟨"up", "+up", .movement, .bare⟩,
  ⟨"down", "+down", .movement, .bare⟩,
  ⟨"turn_left", "+turnleft", .movement, .bare⟩,
  ⟨"turn_right", "+turnright", .movement, .bare⟩,
  ⟨"auto_forward", "+autoforward", .movement, .bare⟩,
  ⟨"full_impulse_toggle", "FullImpulseToggle", .movement, .bare⟩,
  ⟨"throttle_adjust", "ThrottleAdjust", .movement, .amount⟩,
  ⟨"throttle_set", "ThrottleSet", .movement, .amount⟩,
  ⟨"fire_all", "FireAll", .combat, .bare⟩,
  ⟨"fire_phasers", "FirePhasers", .combat, .bare⟩,
  ⟨"fire_torps", "FireTorps", .combat, .bare⟩,
  ⟨"fire_phasers_torps", "FirePhasersTorps", .combat, .bare⟩,
  ⟨"fire_mines", "FireMines", .combat, .bare⟩,
  ⟨"target", "Target", .targeting, .text⟩,
  ⟨"target_enemy_near", "Target_Enemy_Near", .targeting, .bare⟩,
  ⟨"target_friend_near", "Target_Friend_Near", .targeting, .bare⟩,
  ⟨"target_self", "Target_Self", .targeting, .bare⟩,
  ⟨"target_clear", "Target_Clear", .targeting, .bare⟩,
  ⟨"target_teammate", "Target_Teammate", .targeting, .text⟩,
  ⟨"cam_reset", "camreset", .camera, .bare⟩,
  ⟨"cam_dist", "camdist", .camera, .amount⟩,
  ⟨"cam_turn_to_face", "camTurnToFace", .camera, .bare⟩,
  ⟨"bind_load_file", "bind_load_file", .system, .text⟩,
  ⟨"bind_save_file", "bind_save_file", .system, .text⟩,
  ⟨"combat_log", "CombatLog", .system, .amount⟩,
  ⟨"screenshot", "screenshot", .system, .bare⟩,
  ⟨"gen_send_message", "GenSendMessage", .system, .text⟩]

/-- A name without plus signs in front and in lower case. -/
def bareName (name : String) : String :=
  Text.lower (Text.dropPlus name)

namespace Definition

def byId? (id : String) : Option Definition :=
  known.find? (·.id == id)

/-- A second bare name of the plain tray command. -/
def shortTrayName : String := "trayexecbytray"

/-- The command with the given bare name. -/
def byName? (name : String) : Option Definition :=
  if name = shortTrayName then byId? "tray_exec" else known.find? fun d => bareName d.name == name

end Definition

/-! ## Rules -/

/-- A test on a bare name. -/
inductive Matcher where
  | exact (name : String)
  | startsWith (text : String)
  | contains (text : String)
  /-- The name of a known command of the category. -/
  | known (category : Category)
  deriving DecidableEq, Repr

def Matcher.matches (m : Matcher) (name : String) : Bool :=
  match m with
  | .exact s => name == s
  | .startsWith s => s.toList.isPrefixOf name.toList
  | .contains s => Text.occursIn s.toList name.toList
  | .known c => (Definition.byName? name).any fun d => d.category == c

def categoryRules : List (Matcher × Category) := [
  (.contains "trayexecbytraywithbackup", .tray),
  (.contains "trayexecbytray", .tray),
  (.exact "power_exec", .power),
  (.known .communication, .communication),
  (.known .movement, .movement),
  (.startsWith "fire", .combat),
  (.startsWith "target", .targeting),
  (.startsWith "cam", .camera),
  (.known .system, .system),
  (.contains "toggle", .system)]

/-- The category of the first rule that matches a bare name, or `custom`. -/
def Category.ofName (name : String) : Category :=
  ((categoryRules.find? fun rule => rule.1.matches name).map Prod.snd).getD .custom

end Keybinds.Command

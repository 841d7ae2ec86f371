import ModalKeys.Definition.Document

namespace ModalKeys.Definition

private def everywhere (source : String) (commands : List String) : Definition :=
  ⟨[globalMode], source.toList, commands.map String.toList⟩

private def inCommandMode (source command : String) : Definition :=
  ⟨["command".toList], source.toList, [command.toList]⟩

def modeBinds : List Definition := [
  inCommandMode "i" "set mode = insert",
  everywhere "<Escape>" ["event KEYCMD_CLEAR", "set mode ="],
  everywhere "<Ctrl>[" ["set mode ="]]

def editingBinds : List Definition := [
  everywhere "<BackSpace>" ["event KEYCMD_BACKSPACE"],
  everywhere "<Delete>" ["event KEYCMD_DELETE"],
  everywhere "<Return>" ["event KEYCMD_EXEC_CURRENT"],
  everywhere "<Ctrl>w" ["event KEYCMD_STRIP_WORD"],
  everywhere "<Left>" ["event SET_CURSOR_POS -"],
  everywhere "<Right>" ["event SET_CURSOR_POS +"],
  everywhere "<Home>" ["event SET_CURSOR_POS 0"],
  everywhere "<End>" ["event SET_CURSOR_POS -1"],
  everywhere "<Up>" ["event HISTORY_PREV"],
  everywhere "<Down>" ["event HISTORY_NEXT"],
  everywhere "<Tab>" ["event START_COMPLETION"]]

def navigationBinds : List Definition := [
  inCommandMode "j" "scroll vertical 20",
  inCommandMode "k" "scroll vertical -20",
  inCommandMode "gg" "scroll vertical begin",
  inCommandMode "G" "scroll vertical end",
  everywhere "<Ctrl>r" ["reload_ign_cache"]]

def promptBinds : List Definition := [
  inCommandMode "u _" "uri %s",
  inCommandMode "o<uri:>_" "uri %s",
  inCommandMode "O<uri:http://>_" "uri %s",
  inCommandMode "/*" "search %s",
  inCommandMode "?*" "search_reverse %s",
  inCommandMode "s<var:>_<value:>_" "set %1 = %2"]

def quittingBinds : List Definition := [
  inCommandMode "ZZ" "exit",
  inCommandMode ":q!" "exit"]

/-- The keymap that is there from the start. -/
def shipped : List Definition :=
  modeBinds ++ editingBinds ++ navigationBinds ++ promptBinds ++ quittingBinds

/-- Installs the definitions of a file. One that is missing or cannot be read changes nothing. -/
def overlayFile (r : Registry) (content : Option Text) : Registry :=
  match ofFile content with
  | .ok ds => (install r ds).1
  | .error _ => r

/-- The shipped keymap, the user's over it, and a further one over both. -/
def layered (user extra : Option Text) : Registry :=
  overlayFile (overlayFile (install .empty shipped).1 user) extra

end ModalKeys.Definition

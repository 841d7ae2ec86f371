import ModalKeys.Text.Basic

namespace ModalKeys.UserFiles

/-- Appends a name to a directory, with a slash between unless there is one. -/
def join (dir name : Text) : Text :=
  if dir.isEmpty || dir.getLast? = some '/' then dir ++ name else dir ++ '/' :: name

/-- The program's directory in `$XDG_CONFIG_HOME`, or else in `.config` at home. An empty home is
none. -/
def dir? (configHome home : Option Text) : Option Text :=
  let home := home.filter (!·.isEmpty)
  (configHome.or (home.map (join · ".config".toList))).map (join · "keystack".toList)

def settings (dir : Text) : Text := join dir "config.yaml".toList

def keymap (dir : Text) : Text := join dir "keymap.yaml".toList

def logs (dir : Text) : Text := join dir "logs".toList

end ModalKeys.UserFiles

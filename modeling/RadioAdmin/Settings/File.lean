import RadioAdmin.Settings.Basic
import RadioAdmin.Toml.Document
import RadioAdmin.Yaml.Form

/-!
# Settings files

Settings come in two formats, which the name of the file tells apart. A file that is not
there, or whose contents are no text, cannot be read in either.
-/
namespace RadioAdmin.Settings

def ofToml (text : String) : Except SettingsError Settings :=
  match (Toml.parse text).bind (read Toml.form) with
  | some settings => .ok settings
  | none => .error .invalidToml

def ofYaml (text : String) : Except SettingsError Settings :=
  let settings := (Yaml.Document.parse text).bind fun document =>
    read document.form document.root
  match settings with
  | some settings => .ok settings
  | none => .error .invalidYaml

/-- What comes after the last dot of a file name. A dot at the start alone begins nothing. -/
def extension? (name : String) : Option String :=
  let chars := name.toList
  let tail := (chars.reverse.takeWhile (· ≠ '.')).reverse
  if chars.length ≤ tail.length + 1 then none else some (String.ofList tail)

def isYamlName (name : String) : Bool :=
  (extension? name).any fun extension => ["yaml", "yml"].contains extension.toLower

/-- The settings of a file with a name and contents, if it is there. -/
def load (name : String) (contents : Option ByteArray) : Except SettingsError Settings :=
  match contents.bind String.fromUTF8? with
  | none => .error .unreadableFile
  | some text => if isYamlName name then ofYaml text else ofToml text

end RadioAdmin.Settings

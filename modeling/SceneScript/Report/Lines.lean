import SceneScript.Correlation.Position
import SceneScript.Preferences.Basic
import SceneScript.Report.Duration
import SceneScript.Report.Style
import SceneScript.Scene.Basic

namespace SceneScript.Report

def commandStyle : Command → Style
  | .say => .white
  | .comment => .dimmed
  | .changeScene | .callScene | .choose => .magenta
  | .finish => .red
  | _ => .cyan

def source (colored : Bool) : Option Sentence → List Char
  | none => Style.dimmed.paint colored ['-']
  | some s =>
      let keyword := (commandStyle s.command).paint colored s.command.keyword.toList
      if s.commandRaw.isEmpty then keyword
      else keyword ++ ' ' :: '(' :: s.commandRaw.toList ++ [')']

def target (colored : Bool) : Option Selection → List Char
  | none => Style.yellow.paint colored "no mapping".toList
  | some s =>
      Style.green.paint colored s.display ++ ' ' :: Style.dimmed.paint colored
        ('(' :: Text.natural s.lineSpan ++ " lines)".toList)

def mapping (colored : Bool) (line : Nat) (sentence : Option Sentence)
    (selection : Option Selection) : List Char :=
  "line ".toList ++ Text.natural line ++ ' ' :: source colored sentence ++ " -> ".toList
    ++ target colored selection ++ ['\n']

def parsed (colored : Bool) (sentences assets : Nat) (elapsed : Duration) (version : String) :
    List Char :=
  "Parsed ".toList ++ Text.natural sentences ++ " sentences, ".toList ++ Text.natural assets
    ++ " assets in ".toList ++ Style.bold.paint colored elapsed.text ++ "ms (parser ".toList
    ++ Style.cyan.paint colored version.toList ++ ")\n".toList

def versions (colored : Bool) (all : List String) (selected : Option String) : List Char :=
  all.flatMap fun version =>
    if some version = selected then
      '*' :: ' ' :: Style.green.paint colored version.toList ++ ['\n']
    else ' ' :: ' ' :: version.toList ++ ['\n']

def preferences (p : Preferences) : List Char :=
  "Theme:          ".toList ++ p.theme.name.toList ++ " (".toList ++ p.theme.editorTheme.toList
    ++ ")\nLocation sync:  ".toList ++ (if p.location then "on" else "off").toList
    ++ "\nParser version: ".toList ++ (p.parserVersion.getD "newest").toList ++ ['\n']

end SceneScript.Report

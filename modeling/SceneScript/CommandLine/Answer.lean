import SceneScript.Json.Printer
import SceneScript.Report.Lines
import SceneScript.Scene.Written

namespace SceneScript.CommandLine

structure Located where
  line : Nat
  position : Option Position
  selection : Option Selection
deriving DecidableEq, Repr

structure Mapped where
  line : Nat
  sentence : Option Sentence
  selection : Option Selection
deriving DecidableEq, Repr

inductive Answer where
  | greeting
  | parsed (version : String) (elapsed : Duration) (scene : Scene) (shown : Option String)
  | located (lines : List Located)
  | mapped (lines : List Mapped)
  | versions (all : List String) (selected : Option String)
  | preferences (path : String) (preferences : Preferences)
deriving DecidableEq, Repr

structure Printed where
  output : List Char := []
  notes : List Char := []
deriving DecidableEq, Repr

def nullable {α : Type} (toJson : α → Json) : Option α → Json
  | some a => toJson a
  | none => .null

def Located.toJson (l : Located) : Json :=
  .object [("line", .nat l.line), ("position", nullable Position.toJson l.position),
    ("selection", nullable Selection.toJson l.selection)]

def Mapped.toJson (m : Mapped) : Json :=
  .object [("line", .nat m.line), ("sentence", nullable Sentence.toJson m.sentence),
    ("selection", nullable Selection.toJson m.selection)]

namespace Answer

def greetingText : List Char :=
  "WebGAL Parser Playground\nUse --help for more information\n".toList

def toJson? : Answer → Option Json
  | greeting => none
  | parsed version elapsed scene _ =>
      some (.object [("parserVersion", .string version), ("parseTimeMs", elapsed.toJson),
        ("scene", scene.toJson)])
  | located lines => some (.array (lines.map Located.toJson))
  | mapped lines => some (.array (lines.map Mapped.toJson))
  | versions all selected =>
      some (.object [("versions", .array (all.map .string)),
        ("selected", nullable .string selected)])
  | preferences path p => some (.object [("path", .string path), ("config", p.toJson)])

def inLines (colored : Bool) : Answer → Printed
  | greeting => { output := greetingText }
  | parsed version elapsed scene shown =>
      { output := shown.elim [] fun s => s.toList ++ ['\n']
        notes := Report.parsed colored scene.sentences.length scene.assets.length elapsed version }
  | located lines =>
      { output := lines.flatMap fun l => Report.mapping colored l.line none l.selection }
  | mapped lines =>
      { output := lines.flatMap fun m => Report.mapping colored m.line m.sentence m.selection }
  | versions all selected => { output := Report.versions colored all selected }
  | preferences _ p => { output := Report.preferences p }

def printed (json colored : Bool) (answer : Answer) : Printed :=
  match json, answer.toJson? with
  | true, some value => { output := value.pretty ++ ['\n'] }
  | _, _ => answer.inLines colored

end Answer
end SceneScript.CommandLine

import SceneScript.Scene.Basic

namespace SceneScript

def ArgValue.toJson : ArgValue → Json
  | .flag b => .bool b
  | .number n => .number n
  | .text s => .string s

def Arg.toJson (a : Arg) : Json :=
  .object [("key", .string a.key), ("value", a.value.toJson)]

def Asset.toJson (a : Asset) : Json :=
  .object [("name", .string a.name), ("type", .nat a.kind.code), ("url", .string a.url),
    ("lineNumber", .nat a.lineNumber)]

def Sentence.toJson (s : Sentence) : Json :=
  .object [("command", .nat s.command.code), ("commandRaw", .string s.commandRaw),
    ("content", .string s.content), ("args", .array (s.args.map Arg.toJson)),
    ("sentenceAssets", .array (s.assets.map Asset.toJson)),
    ("subScene", .array (s.subScenes.map .string))]

def Scene.toJson (s : Scene) : Json :=
  .object [("sceneName", .string s.name), ("sceneUrl", .string s.url),
    ("sentenceList", .array (s.sentences.map Sentence.toJson)),
    ("assetsList", .array (s.assets.map Asset.toJson)),
    ("subSceneList", .array (s.subScenes.map .string))]

end SceneScript

import SceneScript.Json.Decode
import SceneScript.Scene.Basic

namespace SceneScript

def Command.decode : Decoder Command := fun v => do
  let code ← Decoder.byte v
  match ofCode? code with
  | some c => .ok c
  | none => .error (.unknownCode "CommandType" code)

def AssetKind.decode : Decoder AssetKind := fun v => do
  let code ← Decoder.byte v
  match ofCode? code with
  | some k => .ok k
  | none => .error (.unknownCode "AssetType" code)

def ArgValue.decode : Decoder ArgValue
  | .bool b => .ok (.flag b)
  | .number n => .ok (.number n)
  | .string s => .ok (.text s)
  | _ => .error (.noVariant "ArgValue")

def Arg.shape : Shape where
  title := "Arg"
  fields := [("key", .check .string), ("value", .check ArgValue.decode)]

def Arg.decode : Decoder Arg := fun v => do
  shape.opened v
  let key ← shape.field 0 .string v
  let value ← shape.field 1 ArgValue.decode v
  shape.closed v
  return ⟨key, value⟩

def Asset.shape : Shape where
  title := "Asset"
  fields := [("name", .check .string), ("type", .check AssetKind.decode), ("url", .check .string),
    ("lineNumber", .check .word)]

def Asset.decode : Decoder Asset := fun v => do
  shape.opened v
  let name ← shape.field 0 .string v
  let kind ← shape.field 1 AssetKind.decode v
  let url ← shape.field 2 .string v
  let lineNumber ← shape.field 3 .word v
  shape.closed v
  return ⟨name, kind, url, lineNumber⟩

def Sentence.shape : Shape where
  title := "Sentence"
  fields := [("command", .check Command.decode), ("commandRaw", .check .string),
    ("content", .check .string), ("args", .check (.list Arg.decode)),
    ("sentenceAssets", .check (.list Asset.decode)), ("subScene", .check (.list .string))]

def Sentence.decode : Decoder Sentence := fun v => do
  shape.opened v
  let command ← shape.field 0 Command.decode v
  let commandRaw ← shape.field 1 .string v
  let content ← shape.field 2 .string v
  let args ← shape.field 3 (.list Arg.decode) v
  let assets ← shape.field 4 (.list Asset.decode) v
  let subScenes ← shape.field 5 (.list .string) v
  shape.closed v
  return ⟨command, commandRaw, content, args, assets, subScenes⟩

def Scene.shape : Shape where
  title := "Scene"
  fields := [("sceneName", .check .string), ("sceneUrl", .check .string),
    ("sentenceList", .check (.list Sentence.decode)), ("assetsList", .check (.list Asset.decode)),
    ("subSceneList", .check (.list .string))]

def Scene.decode : Decoder Scene := fun v => do
  shape.opened v
  let name ← shape.field 0 .string v
  let url ← shape.field 1 .string v
  let sentences ← shape.field 2 (.list Sentence.decode) v
  let assets ← shape.field 3 (.list Asset.decode) v
  let subScenes ← shape.field 4 (.list .string) v
  shape.closed v
  return ⟨name, url, sentences, assets, subScenes⟩

end SceneScript

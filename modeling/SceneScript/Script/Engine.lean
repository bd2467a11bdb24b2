import SceneScript.Script.Statement

namespace SceneScript

structure Engine where
  version : String
  parse : (text name base : String) → Scene

namespace Engine

def builtinVersion : String := "0.1.0"

def builtin : Engine where
  version := builtinVersion
  parse := Script.parse

def tagged (tag : String) : Engine where
  version := tag
  parse := fun text name base =>
    let scene := Script.parse text name base
    { scene with subScenes := scene.subScenes ++ ["tag-" ++ tag] }

end Engine
end SceneScript

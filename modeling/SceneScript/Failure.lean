import SceneScript.Files.Directory

namespace SceneScript

inductive Failure where
  | file (error : FileError)
  | badPreferences (path : String)
  | unknownVersion (version : String)
  | noVersions
  /-- The versions to be sorted have no order, which ends the program. -/
  | unordered
deriving DecidableEq, Repr

def Failure.message : Failure → String
  | file error => "IO error: " ++ error.message
  | badPreferences path => "Configuration error: " ++ path
  | unknownVersion version => "Unknown parser version: " ++ version
  | noVersions => "No parser versions available"
  | unordered => "user-provided comparison function does not correctly implement a total order!"

end SceneScript
